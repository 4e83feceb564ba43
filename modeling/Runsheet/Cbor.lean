import Runsheet.Text.Utf8

/-!
Binary data items: a writer that gives every value one shortest form, and a reader for any
well-formed item.
-/
namespace Runsheet

namespace Cbor

/-- The given number of bytes of a number, most significant first. -/
def bigEndian : (width : Nat) → Nat → Text
  | 0, _ => []
  | width + 1, n => bigEndian width (n / 256) ++ [(n % 256).toUInt8]

/-- The number that bytes spell, most significant first. -/
def number (t : Text) : Nat := t.foldl (fun n b => n * 256 + b.toNat) 0

/-- The first byte of an item: its major type and five bits more. -/
def initialByte (major info : Nat) : UInt8 := (major * 32 + info).toUInt8

def head (major n : Nat) : Text :=
  if n < 24 then [initialByte major n]
  else if n < 0x100 then initialByte major 24 :: bigEndian 1 n
  else if n < 0x10000 then initialByte major 25 :: bigEndian 2 n
  else if n < 0x100000000 then initialByte major 26 :: bigEndian 4 n
  else initialByte major 27 :: bigEndian 8 n

def text (t : Text) : Text := head 3 t.length ++ t

def array (items : List Text) : Text := head 4 items.length ++ items.flatten

def map (entries : List (Nat × Text)) : Text :=
  head 5 entries.length ++ entries.flatMap fun (key, value) => head 0 key ++ value

def null : Text := [0xf6]

/-- A data item. Strings keep the chunks they were written in. -/
inductive Item
  | unsigned (n : Nat)
  | negative (n : Nat)
  | bytes (chunks : List Text)
  | text (chunks : List Text)
  | array (items : List Item)
  | map (entries : List (Item × Item))
  | tag (number : Nat) (content : Item)
  | simple (value : Nat)
  | float (bits : Nat)
  deriving Repr

/-- The argument of a head: a number with its width in bytes (zero when it is part of the first
byte), or none when the length is left open. -/
inductive Argument
  | value (n width : Nat)
  | openEnded
  deriving DecidableEq, Repr

def readHead : Text → Option (Nat × Argument × Text)
  | [] => none
  | b :: rest =>
    let major := b.toNat / 32
    let info := b.toNat % 32
    let sized (width : Nat) : Option (Nat × Argument × Text) :=
      if rest.length < width then none
      else some (major, .value (number (rest.take width)) width, rest.drop width)
    if info < 24 then some (major, .value info 0, rest)
    else match info with
      | 24 => sized 1
      | 25 => sized 2
      | 26 => sized 4
      | 27 => sized 8
      | 31 => some (major, .openEnded, rest)
      | _ => none

def maxElements : Nat := 131072

/-- The deepest nesting. -/
def maxDepth : Nat := 32

def take (n : Nat) (t : Text) : Option (Text × Text) :=
  if t.length < n then none else some (t.take n, t.drop n)

variable {α : Type}

/-- So many things, one after the other. -/
def times (read : Text → Option (α × Text)) : Nat → Text → Option (List α × Text)
  | 0, t => some ([], t)
  | n + 1, t => do
    let (a, t) ← read t
    let (as, t) ← times read n t
    return (a :: as, t)

/-- Things up to the mark that ends an open list. The fuel bounds their number. -/
def untilBreak (read : Text → Option (α × Text)) : (fuel : Nat) → Text → Option (List α × Text)
  | _, [] => none
  | 0, b :: rest => if b = 0xff then some ([], rest) else none
  | fuel + 1, b :: rest =>
    if b = 0xff then some ([], rest)
    else do
      let (a, t) ← read (b :: rest)
      let (as, t) ← untilBreak read fuel t
      return (a :: as, t)

def chunk (major : Nat) (t : Text) : Option (Text × Text) :=
  match readHead t with
  | some (m, .value n _, rest) => if m = major then take n rest else none
  | _ => none

def chunks (major : Nat) (argument : Argument) (t : Text) : Option (List Text × Text) :=
  match argument with
  | .value n _ => (take n t).map fun (c, rest) => ([c], rest)
  | .openEnded => untilBreak (chunk major) t.length t

/-- Puts neighbours in pairs; none is left over. -/
def pairs : List α → Option (List (α × α))
  | [] => some []
  | [_] => none
  | a :: b :: rest => (pairs rest).map ((a, b) :: ·)

/-- The items of an array, or the keys and values of a map in turn. -/
def elements (read : Text → Option (Item × Text)) (perEntry : Nat) (argument : Argument)
    (t : Text) : Option (List Item × Text) :=
  match argument with
  | .value n _ => if n > maxElements then none else times read (n * perEntry) t
  | .openEnded => do
    let (items, rest) ← untilBreak read t.length t
    if items.length > maxElements * perEntry then none else return (items, rest)

/-- A simple value or a float. -/
def primitive (argument : Argument) (t : Text) : Option (Item × Text) :=
  match argument with
  | .openEnded => none
  | .value n 0 => some (.simple n, t)
  | .value n 1 => if n < 32 then none else some (.simple n, t)
  | .value n _ => some (.float n, t)

/-- The item at the front of a text, with room for so many levels of nesting. The first of several
tags around an item is not a level. -/
def item (room : Nat) (tagged : Bool) (t : Text) : Option (Item × Text) :=
  match readHead t with
  | none => none
  | some (major, argument, rest) =>
    match major with
    | 0 => match argument with
      | .value n _ => some (.unsigned n, rest)
      | .openEnded => none
    | 1 => match argument with
      | .value n _ => some (.negative n, rest)
      | .openEnded => none
    | 2 => (chunks 2 argument rest).map fun (cs, rest) => (.bytes cs, rest)
    | 3 => (chunks 3 argument rest).map fun (cs, rest) => (.text cs, rest)
    | 4 => match room with
      | 0 => none
      | room + 1 => (elements (item room false) 1 argument rest).map fun (items, rest) =>
          (.array items, rest)
    | 5 => match room with
      | 0 => none
      | room + 1 => do
        let (items, rest) ← elements (item room false) 2 argument rest
        let entries ← pairs items
        return (.map entries, rest)
    | 6 => match argument, room, tagged with
      | .openEnded, _, _ => none
      | .value n _, room, false => (item room true rest).map fun (i, rest) => (.tag n i, rest)
      | .value _ _, 0, true => none
      | .value n _, room + 1, true => (item room true rest).map fun (i, rest) => (.tag n i, rest)
    | _ => primitive argument rest
termination_by (room, if tagged then 0 else 1)
decreasing_by all_goals simp_wf; omega

def parse (t : Text) : Option Item :=
  match item maxDepth false t with
  | some (i, []) => some i
  | _ => none

namespace Item

def isNull : Item → Bool
  | simple 22 | simple 23 => true
  | _ => false

/-- The item inside all tags. A tag for a time as text holds a text; the tags for a time as a number
and for large numbers hold nothing that is asked for here. -/
def untagged? : Item → Option Item
  | tag 0 content =>
    match content with
    | text chunks => some (text chunks)
    | _ => none
  | tag 1 _ | tag 2 _ | tag 3 _ => none
  | tag _ content => content.untagged?
  | i => some i

/-- A text, every chunk of which is UTF-8. Nothing stands for the empty text. -/
def text? (i : Item) : Option Text := do
  let i ← i.untagged?
  if i.isNull then return []
  else match i with
    | text chunks => if chunks.all Text.isUtf8 then return chunks.flatten else none
    | _ => none

/-- A list of things. Nothing stands for no list. -/
def list? (i : Item) (element : Item → Option α) : Option (Option (List α)) := do
  let i ← i.untagged?
  if i.isNull then return none
  else match i with
    | array items => return some (← items.mapM element)
    | _ => none

end Item

inductive Key
  | number (n : Int)
  | name (t : Text)
  deriving DecidableEq, Repr

def signed64 (n : Nat) : Int := if n < 0x8000000000000000 then n else (n : Int) - 0x10000000000000000

/-- The key that an item is: a number, or a text, which for a known number is that number. -/
def Key.ofItem? (known : List Nat) : Item → Option Key
  | .unsigned n => some (.number (signed64 n))
  | .negative n => some (.number (-1 - signed64 n))
  | .text chunks =>
    if chunks.all Text.isUtf8 then
      match known.find? fun k => Text.decimal k == chunks.flatten with
      | some k => some (.number k)
      | none => some (.name chunks.flatten)
    else none
  | _ => none

/-- The fields of a record, whose keys are all different. Nothing stands for no fields. -/
def Item.fields? (known : List Nat) (i : Item) : Option (List (Key × Item)) := do
  let i ← i.untagged?
  if i.isNull then return []
  else match i with
    | .map entries =>
      let fields ← entries.mapM fun (key, value) => (Key.ofItem? known key).map (·, value)
      if (fields.map Prod.fst).Nodup then return fields else none
    | _ => none

def field? (fields : List (Key × Item)) (n : Nat) : Option Item := fields.lookup (.number n)

end Cbor

end Runsheet
