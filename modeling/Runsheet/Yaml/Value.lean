import Runsheet.Dyadic
import Runsheet.Text.Base64
import Runsheet.Yaml.Node
import Runsheet.Yaml.Resolve

/-!
What a document says: its nodes with scalars resolved, aliases followed and merged mappings put
together.
-/
namespace Runsheet

namespace Yaml

/-- The key of an entry. A key that is not a text keeps its spelling. -/
inductive Key
  | text (t : Text)
  | other (spelling : Text)
  | null
  deriving DecidableEq, Repr

inductive Value
  | null
  | boolean (b : Bool)
  | number (n : Dyadic)
  | notFinite
  | timestamp (time : Timestamp) (spelling : Text)
  | text (t : Text)
  | sequence (items : List Value)
  | mapping (entries : List (Key × Value))

def shortTag (tag : Text) : Text :=
  let long : Text := "tag:yaml.org,2002:"
  if tag.startsWith long then "!!" ++ tag.drop long.length else tag

def isUntagged (tag : Option Text) : Bool := tag.all (· == Text.ofString "!")

/-- Checks a scalar against the tag of a basic type. A whole number of 64 bits with a sign is also a
decimal. -/
def Scalar.checked (tag : Text) (s : Scalar) : Option Scalar :=
  match s with
  | .null => if tag = "!!null" then some s else none
  | .boolean _ => if tag = "!!bool" then some s else none
  | .integer n =>
    if tag = "!!int" ∨ (tag = "!!float" ∧ n < 0x8000000000000000) then some s else none
  | .decimal _ | .notFinite => if tag = "!!float" then some s else none
  | .timestamp _ => if tag = "!!timestamp" then some s else none
  | .merge | .text _ => none

/-- The value of a scalar. Without a tag, quotes make a text; a tag of a basic type has to fit, and
any other tag leaves the text as it is. -/
def scalarValue (tag : Option Text) (plain : Bool) (content : Text) : Option Scalar :=
  if isUntagged tag then
    some (if plain then
      match resolve content with
      | .merge => .text content
      | s => s
    else .text content)
  else
    let tag := shortTag (tag.getD [])
    if tag = "!!binary" then (Base64.decode? content).map .text
    else if isAmong ["!!null", "!!bool", "!!int", "!!float", "!!timestamp"] tag then
      (resolve content).checked tag
    else some (.text content)

def Scalar.toValue (spelling : Text) : Scalar → Value
  | .null => .null
  | .boolean b => .boolean b
  | .integer n => .number (Dyadic.ofInt n)
  | .decimal d => .number (Dyadic.ofDecimal d)
  | .notFinite => .notFinite
  | .timestamp time => .timestamp time spelling
  | .merge => .text spelling
  | .text t => .text t

namespace Node

def isMapping : Node → Bool
  | .mapping _ | .alias _ (.mapping _) => true
  | _ => false

def isMerge : Node → Bool
  | .scalar tag plain content =>
    content == Text.ofString "<<" &&
      ((plain && isUntagged tag) || tag.any fun t => shortTag t == Text.ofString "!!merge")
  | _ => false

def scalarKey (tag : Option Text) (plain : Bool) (content : Text) : Option Key :=
  match scalarValue tag plain content with
  | none => none
  | some .null => some .null
  | some (.text t) =>
    if isUntagged tag || tag.any fun t => shortTag t == Text.ofString "!!str" then some (.text t)
    else some (.other t)
  | some _ => some (.other content)

/-- The key that a node spells. Collections are no keys. -/
def key? : Node → Option Key
  | .scalar tag plain content => scalarKey tag plain content
  | .alias _ (.scalar tag plain content) => scalarKey tag plain content
  | _ => none

/-- Whether two keys are written alike: scalars by their content, aliases by their name. -/
def writtenAlike : Node → Node → Bool
  | .scalar _ _ s, .scalar _ _ t => s == t
  | .alias s _, .alias t _ => s == t
  | .sequence _, .sequence _ => true
  | .mapping _, .mapping _ => true
  | _, _ => false

def repeatsKey : List (Node × Node) → Bool
  | [] => false
  | (k, _) :: rest => rest.any (fun (k', _) => writtenAlike k k') || repeatsKey rest

end Node

/-- Puts an entry in place of one with the same key, or at the end. -/
def putEntry (entries : List (Key × Value)) (e : Key × Value) : List (Key × Value) :=
  if entries.any (·.1 == e.1) then entries.map fun o => if o.1 == e.1 then e else o
  else entries ++ [e]

def Key.isText : Key → Bool
  | .text _ => true
  | _ => false

/-- A key as it goes into a mapping whose keys are texts: its spelling, and nothing for null. -/
def Key.asText : Key → Option Key
  | .text t | .other t => some (.text t)
  | .null => none

/-- Merges an entry into a mapping. Keys that are there already stay as they are. -/
def mergeEntry (textual : Bool) (entries : List (Key × Value)) (e : Key × Value) :
    List (Key × Value) :=
  match if textual then e.1.asText else some e.1 with
  | some k => if entries.any (·.1 == k) then entries else entries ++ [(k, e.2)]
  | none => entries

/-- Merges mappings into one, the first of them first. -/
def mergeAll (own : List (Key × Value)) (sources : List Value) : List (Key × Value) :=
  let textual := own.all (·.1.isText)
  sources.foldl (fun entries source =>
    match source with
    | .mapping more => more.foldl (mergeEntry textual) entries
    | _ => entries) own

mutual

/-- The value of a node, none where a scalar does not fit its tag, a collection is a key, a key is
written twice, or something other than mappings is merged. -/
def Node.value : Node → Option Value
  | .scalar tag plain content => (scalarValue tag plain content).map (Scalar.toValue content)
  | .alias _ target => target.value
  | .sequence items => (itemValues items).map .sequence
  | .mapping entries =>
    if Node.repeatsKey entries then none
    else
      match ownEntries entries, mergeSources entries with
      | some own, some sources => some (.mapping (mergeAll (own.foldl putEntry []) sources))
      | _, _ => none

def itemValues : List Node → Option (List Value)
  | [] => some []
  | item :: rest =>
    match item.value, itemValues rest with
    | some v, some vs => some (v :: vs)
    | _, _ => none

def ownEntries : List (Node × Node) → Option (List (Key × Value))
  | [] => some []
  | (k, v) :: rest =>
    if k.isMerge then ownEntries rest
    else
      match k.key?, v.value, ownEntries rest with
      | some k, some v, some es => some ((k, v) :: es)
      | _, _, _ => none

def mergeSources : List (Node × Node) → Option (List Value)
  | [] => some []
  | (k, v) :: rest =>
    if k.isMerge then
      match v with
      | .sequence items => if items.all Node.isMapping then itemValues items else none
      | v => if v.isMapping then v.value.map ([·]) else none
    else mergeSources rest

end

namespace Value

/-- The type of a value as data files know it; a point in time is a text there. -/
def typeName : Value → String
  | null => "null"
  | boolean _ => "boolean"
  | number _ | notFinite => "number"
  | timestamp _ _ | text _ => "string"
  | sequence _ => "array"
  | mapping _ => "object"

def repaired (t : Text) : Text :=
  t.runes.flatMap fun
    | .char c => String.utf8EncodeChar c
    | .invalid _ => String.utf8EncodeChar (Char.ofNat 0xfffd)

def dataText? : Value → Option Text
  | text t => some (repaired t)
  | timestamp time _ => time.text?
  | _ => none

def spelling? : Value → Option Text
  | text t => some t
  | timestamp _ spelling => some spelling
  | _ => none

mutual

/-- Whether a value can be written to a data file: numbers are finite, keys are texts, and zones are
less than a day off. -/
def isRepresentable : Value → Bool
  | notFinite => false
  | timestamp time _ => time.text?.isSome
  | sequence items => itemsRepresentable items
  | mapping entries => entriesRepresentable entries
  | _ => true

def itemsRepresentable : List Value → Bool
  | [] => true
  | v :: rest => v.isRepresentable && itemsRepresentable rest

def entriesRepresentable : List (Key × Value) → Bool
  | [] => true
  | (k, v) :: rest => k.isText && v.isRepresentable && entriesRepresentable rest

end

mutual

def same : Value → Value → Bool
  | null, null => true
  | boolean a, boolean b => a == b
  | number m, number n => m.same n
  | sequence xs, sequence ys => sameItems xs ys
  | mapping xs, mapping ys => xs.length == ys.length && sameEntries xs ys
  | x, y =>
    match x.dataText?, y.dataText? with
    | some s, some t => s == t
    | _, _ => false

def sameItems : List Value → List Value → Bool
  | [], [] => true
  | x :: xs, y :: ys => x.same y && sameItems xs ys
  | _, _ => false

def sameEntries : List (Key × Value) → List (Key × Value) → Bool
  | [], _ => true
  | (k, x) :: xs, ys => (ys.find? (·.1 == k)).any (fun y => x.same y.2) && sameEntries xs ys

end

end Value

end Yaml

end Runsheet
