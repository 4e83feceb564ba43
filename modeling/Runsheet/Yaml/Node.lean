import Runsheet.Yaml.Token.Scan

/-!
The nodes of a document: scalars, sequences, mappings, and aliases of nodes that have an anchor. Only
the first document of a stream is read.
-/
namespace Runsheet

namespace Yaml

/-- A node. An alias holds the node that it stands for. -/
inductive Node
  | scalar (tag : Option Text) (plain : Bool) (content : Text)
  | sequence (items : List Node)
  | mapping (entries : List (Node × Node))
  | alias (name : Text) (target : Node)

namespace Node

def empty : Node := .scalar none true []

end Node

/-- The tokens still to be read, whether they are all there are, the tag handles of the document, and
the anchors met so far. An anchor whose node is still being read has none. -/
structure Reading where
  tokens : List Token
  complete : Bool
  handles : List (Text × Text) := []
  anchors : List (Text × Option Node) := []

namespace Reading

/-- The next token. It is known only once two more are, so a mistake shows two tokens ahead. -/
def peek (r : Reading) : Option Token :=
  match r.tokens with
  | t :: _ :: _ :: _ => some t
  | t :: _ => if r.complete then some t else none
  | [] => if r.complete then some .streamEnd else none

def skip (r : Reading) : Reading := { r with tokens := r.tokens.drop 1 }

def sees (r : Reading) (ts : List Token) : Option Bool := r.peek.map ts.contains

def expandTag (r : Reading) (handle suffix : Text) : Option Text :=
  if handle.isEmpty then some suffix
  else (r.handles.find? (·.1 == handle)).map (·.2 ++ suffix)

/-- The anchor and the tag before a node, in either order. -/
def properties (r : Reading) : Option (Option Text × Option Text × Reading) := do
  match ← r.peek with
  | .anchor a =>
    let r := r.skip
    match ← r.peek with
    | .tag h s => return (some a, some (← r.expandTag h s), r.skip)
    | _ => return (some a, none, r)
  | .tag h s =>
    let t ← r.expandTag h s
    let r := r.skip
    match ← r.peek with
    | .anchor a => return (some a, some t, r.skip)
    | _ => return (none, some t, r)
  | _ => return (none, none, r)

/-- Records what an anchor stands for; nothing while its node is being read. -/
def bind (r : Reading) (anchor : Option Text) (node : Option Node) : Reading :=
  match anchor with
  | some name => { r with anchors := (name, node) :: r.anchors }
  | none => r

def closeAnchor (anchor : Option Text) (node : Node) (r : Reading) : Reading :=
  match anchor with
  | some name => { r with anchors := go name r.anchors }
  | none => r
where
  /-- Fills in the first open entry of a name. -/
  go (name : Text) : List (Text × Option Node) → List (Text × Option Node)
    | [] => []
    | (other, some n) :: rest => (other, some n) :: go name rest
    | (other, none) :: rest =>
      if other == name then (other, some node) :: rest else (other, none) :: go name rest

def emptyNode (anchor tag : Option Text) (r : Reading) : Option (Node × Reading) :=
  if anchor.isNone && tag.isNone then none
  else
    let n := Node.scalar tag true []
    some (n, r.bind anchor (some n))

def resolveAlias (r : Reading) (name : Text) : Option Node :=
  match r.anchors.find? (·.1 == name) with
  | some (_, node) => node
  | none => none

mutual

/-- Reads a node. Block collections are known outside brackets only; as a key or a value of a block
mapping a sequence need not be indented. -/
def node : (fuel : Nat) → (block indentless : Bool) → Reading → Option (Node × Reading)
  | 0, _, _, _ => none
  | fuel + 1, block, indentless, r => do
    match ← r.peek with
    | .alias name => return (.alias name (← r.resolveAlias name), r.skip)
    | _ =>
      let (anchor, tag, r) ← r.properties
      let opened := r.bind anchor none
      let close (n : Node) (r : Reading) : Node × Reading := (n, r.closeAnchor anchor n)
      match ← r.peek with
      | .scalar content plain =>
        let n := Node.scalar tag plain content
        return (n, r.skip.bind anchor (some n))
      | .flowSequenceStart =>
        let (items, r) ← flowItems fuel true opened.skip
        return close (.sequence items) r
      | .flowMappingStart =>
        let (entries, r) ← flowEntries fuel true opened.skip
        return close (.mapping entries) r
      | .blockEntry =>
        if indentless then
          let (items, r) ← indentlessItems fuel opened
          return close (.sequence items) r
        else emptyNode anchor tag r
      | .blockSequenceStart =>
        if block then
          let (items, r) ← blockItems fuel opened.skip
          return close (.sequence items) r
        else emptyNode anchor tag r
      | .blockMappingStart =>
        if block then
          let (entries, r) ← blockEntries fuel opened.skip
          return close (.mapping entries) r
        else emptyNode anchor tag r
      | _ => emptyNode anchor tag r

/-- The items of a block sequence, up to its end. -/
def blockItems : (fuel : Nat) → Reading → Option (List Node × Reading)
  | 0, _ => none
  | fuel + 1, r => do
    match ← r.peek with
    | .blockEntry =>
      let r := r.skip
      let (item, r) ←
        if ← r.sees [.blockEntry, .blockEnd] then some (Node.empty, r) else node fuel true false r
      let (items, r) ← blockItems fuel r
      return (item :: items, r)
    | .blockEnd => return ([], r.skip)
    | _ => none

def indentlessItems : (fuel : Nat) → Reading → Option (List Node × Reading)
  | 0, _ => none
  | fuel + 1, r => do
    match ← r.peek with
    | .blockEntry =>
      let r := r.skip
      let (item, r) ←
        if ← r.sees [.blockEntry, .key, .value, .blockEnd] then some (Node.empty, r)
        else node fuel true false r
      let (items, r) ← indentlessItems fuel r
      return (item :: items, r)
    | _ => return ([], r)

/-- The entries of a block mapping, up to its end. -/
def blockEntries : (fuel : Nat) → Reading → Option (List (Node × Node) × Reading)
  | 0, _ => none
  | fuel + 1, r => do
    match ← r.peek with
    | .key =>
      let r := r.skip
      let (key, r) ←
        if ← r.sees [.key, .value, .blockEnd] then some (Node.empty, r) else node fuel true true r
      let (value, r) ←
        if ← r.sees [.value] then
          let r := r.skip
          if ← r.sees [.key, .value, .blockEnd] then some (Node.empty, r) else node fuel true true r
        else some (Node.empty, r)
      let (entries, r) ← blockEntries fuel r
      return ((key, value) :: entries, r)
    | .blockEnd => return ([], r.skip)
    | _ => none

/-- The items between square brackets, up to the closing one. A key among them makes a mapping of one
entry. -/
def flowItems : (fuel : Nat) → (first : Bool) → Reading → Option (List Node × Reading)
  | 0, _, _ => none
  | fuel + 1, first, r => do
    if ← r.sees [.flowSequenceEnd] then return ([], r.skip)
    let r ← if first then some r else if ← r.sees [.flowEntry] then some r.skip else none
    match ← r.peek with
    | .flowSequenceEnd => return ([], r.skip)
    | .key =>
      let r := r.skip
      let (key, r) ←
        if ← r.sees [.value, .flowEntry, .flowSequenceEnd] then some (Node.empty, r.skip)
        else node fuel false false r
      let (value, r) ←
        if ← r.sees [.value] then
          let r := r.skip
          if ← r.sees [.flowEntry, .flowSequenceEnd] then some (Node.empty, r)
          else node fuel false false r
        else some (Node.empty, r)
      let (items, r) ← flowItems fuel false r
      return (.mapping [(key, value)] :: items, r)
    | _ =>
      let (item, r) ← node fuel false false r
      let (items, r) ← flowItems fuel false r
      return (item :: items, r)

/-- The entries between braces, up to the closing one. A node that is not marked as a key has no
value. -/
def flowEntries : (fuel : Nat) → (first : Bool) → Reading → Option (List (Node × Node) × Reading)
  | 0, _, _ => none
  | fuel + 1, first, r => do
    if ← r.sees [.flowMappingEnd] then return ([], r.skip)
    let r ← if first then some r else if ← r.sees [.flowEntry] then some r.skip else none
    match ← r.peek with
    | .flowMappingEnd => return ([], r.skip)
    | .key =>
      let r := r.skip
      let (key, r) ←
        if ← r.sees [.value, .flowEntry, .flowMappingEnd] then some (Node.empty, r)
        else node fuel false false r
      let (value, r) ←
        if ← r.sees [.value] then
          let r := r.skip
          if ← r.sees [.flowEntry, .flowMappingEnd] then some (Node.empty, r)
          else node fuel false false r
        else some (Node.empty, r)
      let (entries, r) ← flowEntries fuel false r
      return ((key, value) :: entries, r)
    | _ =>
      let (key, r) ← node fuel false false r
      let (entries, r) ← flowEntries fuel false r
      return ((key, .empty) :: entries, r)

end

def isContent : Token → Bool
  | .version _ _ | .tagHandle _ _ | .documentStart | .documentEnd | .streamEnd => false
  | _ => true

def standardHandles : List (Text × Text) := [("!", "!"), ("!!", "tag:yaml.org,2002:")]

/-- Reads directives: at most one version, which has to be 1.1, and tag handles, each once. -/
def directives : (fuel : Nat) → (versionSeen : Bool) → Reading → Option Reading
  | 0, _, _ => none
  | fuel + 1, versionSeen, r => do
    match ← r.peek with
    | .version major minor =>
      if versionSeen || major ≠ 1 || minor ≠ 1 then none else directives fuel true r.skip
    | .tagHandle handle lead =>
      if r.handles.any (·.1 == handle) then none
      else directives fuel versionSeen { r.skip with handles := r.handles ++ [(handle, lead)] }
    | _ => return { r with handles := r.handles ++ standardHandles }

/-- Reads the first document, if there is one. What comes after it is not looked at, but for the two
tokens that follow the next. -/
def document (r : Reading) : Option (Option Node) := do
  let fuel := 4 * r.tokens.length + 4
  let t ← r.peek
  let (n, r) ←
    if t = .streamEnd then return none
    else if isContent t || t = .documentEnd then
      node fuel true false { r with handles := standardHandles }
    else
      let r ← directives fuel false r
      if ← r.sees [.documentStart] then
        let r := r.skip
        if isContent (← r.peek) then node fuel true false r else some (Node.empty, r)
      else none
  let _ ← r.peek
  return some n

end Reading

/-- The first document of a text; nothing if the text is empty, and a failure if it is malformed. -/
def firstDocument (t : Text) : Option (Option Node) :=
  match characters? t with
  | some cs => { tokens := (tokens cs).1, complete := (tokens cs).2 : Reading }.document
  | none => none

end Yaml

end Runsheet
