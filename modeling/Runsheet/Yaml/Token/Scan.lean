import Runsheet.Yaml.Token.Scalar

/-!
Cutting a document into tokens. A scalar or a collection becomes a key only when a colon follows on
the same line, so the scanner remembers where each possible key began and inserts the key token, and
the start of a mapping, once it meets the colon.
-/
namespace Runsheet

namespace Yaml

/-- A token that may turn out to be a key: its number among the tokens and its place. At the
indentation of an open block nothing but a key may stand, so there it is required. -/
structure PossibleKey where
  number : Nat
  required : Bool
  line : Nat
  column : Nat
  index : Nat
  deriving DecidableEq, Repr

/-- The state of a scanner. `keys` has the possible key of each open bracket, the innermost first, and
last that of the block around them. -/
structure Scanner where
  cursor : Cursor
  tokens : List Token := []
  indent : Int := -1
  outerIndents : List Int := []
  keys : List (Option PossibleKey) := [none]
  keyAllowed : Bool := true

namespace Scanner

def inFlow (s : Scanner) : Bool := s.keys.length > 1

def emit (s : Scanner) (t : Token) : Scanner := { s with tokens := s.tokens ++ [t] }

def advance (s : Scanner) (n : Nat) : Scanner := { s with cursor := s.cursor.advance n }

def setKey (s : Scanner) (k : Option PossibleKey) : Scanner := { s with keys := k :: s.keys.drop 1 }

/-- Gives up the possible key of the innermost bracket. A required one cannot be given up. -/
def dropKey (s : Scanner) : Option Scanner :=
  match s.keys.head? with
  | some (some k) => if k.required then none else some (s.setKey none)
  | _ => some s

/-- Remembers that the next token may be a key, where a key may stand. -/
def saveKey (s : Scanner) : Option Scanner :=
  if s.keyAllowed then
    s.dropKey.map fun s' => s'.setKey (some
      { number := s.tokens.length
        required := !s.inFlow && s.indent == s.cursor.column
        line := s.cursor.line
        column := s.cursor.column
        index := s.cursor.index })
  else some s

def unroll (column : Int) (s : Scanner) : Scanner :=
  if s.inFlow then s
  else go s.outerIndents s
where
  /-- Closes one block after the other. -/
  go : List Int → Scanner → Scanner
    | [], s => s
    | outer :: rest, s =>
      if s.indent > column then
        go rest { s.emit .blockEnd with indent := outer, outerIndents := rest }
      else s

/-- Opens a block at a column that lies further in than the current one. Its first token is inserted
before the token of the given number. -/
def roll (s : Scanner) (column number : Nat) (start : Token) : Scanner :=
  if s.inFlow || s.indent ≥ column then s
  else
    { s with
      tokens := s.tokens.insertIdx number start
      indent := column
      outerIndents := s.indent :: s.outerIndents }

/-- Goes over white space and comments. Tabs do not count where a key may start. The fuel bounds the
number of lines. -/
def skipToToken : (fuel : Nat) → Scanner → Scanner
  | 0, s => s
  | fuel + 1, s =>
    let c := s.cursor
    let c := if c.column = 0 ∧ c.sees (Char.ofNat 0xfeff) then c.advance 1 else c
    let c := c.skipWhile fun x => x = ' ' || (x = '\t' && (s.inFlow || !s.keyAllowed))
    let c := if c.sees '#' then c.skipComments c.rest.length else c
    match c.lineBreak? with
    | some (_, next) =>
      skipToToken fuel { s with cursor := next, keyAllowed := s.keyAllowed || !s.inFlow }
    | none => { s with cursor := c }

def skipLineComment (s : Scanner) : Scanner :=
  if s.cursor.skipBlanks.sees '#' then { s with cursor := s.cursor.skipLine } else s

def mark (s : Scanner) (t : Token) (width : Nat) (keyAllowed : Bool) : Scanner :=
  { (s.advance width).emit t with keyAllowed }

def documentMark (s : Scanner) (t : Token) : Option Scanner :=
  (s.unroll (-1)).dropKey.map fun s => s.mark t 3 false

/-- An opening bracket. It may start a key, and inside it a key may stand. -/
def openBracket (s : Scanner) (t : Token) : Option Scanner :=
  s.saveKey.map fun s => ({ s with keys := none :: s.keys }.mark t 1 true).skipLineComment

def closeBracket (s : Scanner) (t : Token) : Option Scanner :=
  s.dropKey.map fun s =>
    ({ s with keys := if s.inFlow then s.keys.drop 1 else s.keys }.mark t 1 false).skipLineComment

/-- The dash of an item. -/
def blockEntry (s : Scanner) : Option Scanner :=
  if !s.inFlow && !s.keyAllowed then none
  else
    (s.roll s.cursor.column s.tokens.length .blockSequenceStart).dropKey.map fun s =>
      s.mark .blockEntry 1 true

def explicitKey (s : Scanner) : Option Scanner :=
  if !s.inFlow && !s.keyAllowed then none
  else
    (s.roll s.cursor.column s.tokens.length .blockMappingStart).dropKey.map fun s =>
      (s.mark .key 1 (!s.inFlow)).skipLineComment

/-- Whether a possible key is too far back to be one: on another line, or more than 1024 characters
away. -/
def isStale (s : Scanner) (k : PossibleKey) : Bool :=
  k.line < s.cursor.line || k.index + 1024 < s.cursor.index

/-- The colon after a key that was not marked: the key token goes before the key. -/
def valueAfter (s : Scanner) (k : PossibleKey) : Scanner :=
  let s := { s with tokens := s.tokens.insertIdx k.number .key }
  (((s.roll k.column k.number .blockMappingStart).setKey none).mark .value 1 false).skipLineComment

/-- The colon after a key that was marked, or after none. -/
def valueAlone (s : Scanner) : Option Scanner :=
  if !s.inFlow && !s.keyAllowed then none
  else
    let s := s.roll s.cursor.column s.tokens.length .blockMappingStart
    some (s.mark .value 1 (!s.inFlow)).skipLineComment

def value (s : Scanner) : Option Scanner :=
  match s.keys.head? with
  | some (some k) =>
    if s.isStale k then if k.required then none else (s.setKey none).valueAlone
    else some (s.valueAfter k)
  | _ => s.valueAlone

/-- The name of an anchor or an alias, after its mark. -/
def reference (s : Scanner) (make : Text → Token) : Option Scanner :=
  match s.saveKey with
  | none => none
  | some s =>
    let name := (s.cursor.rest.drop 1).takeWhile isNameCharacter
    let s := s.advance (name.length + 1)
    let ended := s.cursor.head?.all fun c => separates c || "?:,]\x7d%@\x60".toList.contains c
    if name.isEmpty || !ended then none
    else some { s.emit (make (textOf name)) with keyAllowed := false }.skipLineComment

def isTagCharacter (c : Char) : Bool :=
  isNameCharacter c || ";/?:@&=+$,.!~*'()[]%".toList.contains c

/-- The bytes of a tag in which `%` and two hexadecimal digits spell a byte. -/
def tagBytes : List Char → Option Text
  | [] => some []
  | '%' :: a :: b :: rest =>
    match hexNumber? 2 [a, b], tagBytes rest with
    | some n, some t => some (n.toUInt8 :: t)
    | _, _ => none
  | c :: rest => if c = '%' then none else (tagBytes rest).map (String.utf8EncodeChar c ++ ·)

/-- A tag in full, between `!<` and `>`. -/
def verbatimTag (c : Cursor) : Option (Token × Cursor) :=
  let body := (c.rest.drop 2).takeWhile isTagCharacter
  let c := c.advance (body.length + 2)
  match tagBytes body with
  | some t => if body.isEmpty || !c.sees '>' then none else some (.tag [] t, c.advance 1)
  | none => none

/-- A tag after a handle: `!`, `!!` or `!name!`. -/
def handledTag (c : Cursor) : Option (Token × Cursor) :=
  let name := (c.rest.drop 1).takeWhile isNameCharacter
  let handled := c.peek? (name.length + 1) == some '!'
  let skipped := if handled then name.length + 2 else 1
  let body := (c.rest.drop skipped).takeWhile isTagCharacter
  let c' := c.advance (skipped + body.length)
  match tagBytes body with
  | none => none
  | some t =>
    if handled then
      if t.isEmpty then none else some (.tag (textOf (c.rest.take skipped)) t, c')
    else if t.isEmpty then some (.tag [] "!", c')
    else some (.tag "!" t, c')

def tag (s : Scanner) : Option Scanner :=
  match s.saveKey with
  | none => none
  | some s =>
    let read := if s.cursor.peek? 1 == some '<' then verbatimTag s.cursor else handledTag s.cursor
    match read with
    | none => none
    | some (t, c) =>
      if c.separatedAt 0 then
        some ({ s with cursor := c, keyAllowed := false }.emit t).skipLineComment
      else none

def quotedScalar (s : Scanner) (double : Bool) : Option Scanner :=
  match s.saveKey with
  | none => none
  | some s =>
    let start := s.cursor.advance 1
    match quotedContent double (start.rest.length + 1) start {} with
    | none => none
    | some (f, c) =>
      some ({ s with cursor := c.advance 1, keyAllowed := false }.emit
        (.scalar (textOf f.content) false)).skipLineComment

def plainScalar (s : Scanner) : Option Scanner :=
  match s.saveKey with
  | none => none
  | some s =>
    match plainWords s.inFlow (s.indent + 1).toNat (s.cursor.rest.length + 1) s.cursor {} with
    | none => none
    | some (f, c) =>
      let s := { s with cursor := c, keyAllowed := f.broken }.emit (.scalar (textOf f.content) true)
      some (if f.broken then s else s.skipLineComment)

def lines (s : Scanner) (literal : Bool) : Option Scanner :=
  match s.dropKey with
  | none => none
  | some s =>
    match blockScalar literal (s.indent + 1).toNat (s.cursor.advance 1) with
    | none => none
    | some (content, c) =>
      some ({ s with cursor := c, keyAllowed := true }.emit (.scalar (textOf content) false))

def directiveNumber (c : Cursor) : Option (Nat × Cursor) :=
  let digits := c.rest.takeWhile Char.isDigit
  if digits.isEmpty || digits.length > 9 then none
  else some (digits.foldl (fun n d => n * 10 + (d.toNat - 48)) 0, c.advance digits.length)

def versionDirective (c : Cursor) : Option (Token × Cursor) :=
  match directiveNumber c.skipBlanks with
  | none => none
  | some (major, c) =>
    if !c.sees '.' then none
    else (directiveNumber (c.advance 1)).map fun (minor, c) => (.version major minor, c)

/-- A handle and what it stands for. -/
def tagDirective (c : Cursor) : Option (Token × Cursor) :=
  let c := c.skipBlanks
  let name := (c.rest.drop 1).takeWhile isNameCharacter
  let closed := c.peek? (name.length + 1) == some '!'
  let width := if closed then name.length + 2 else name.length + 1
  let handle := textOf (c.rest.take width)
  if !c.sees '!' || (!closed && !name.isEmpty) || !(c.peek? width).any isSpaceOrTab then none
  else
    let c := (c.advance width).skipBlanks
    let body := c.rest.takeWhile isTagCharacter
    let c := c.advance body.length
    match tagBytes body with
    | some lead => if body.isEmpty || !c.separatedAt 0 then none else some (.tagHandle handle lead, c)
    | none => none

/-- A line that starts with `%`. -/
def directive (s : Scanner) : Option Scanner :=
  match (s.unroll (-1)).dropKey with
  | none => none
  | some s =>
    let name := (s.cursor.rest.drop 1).takeWhile isNameCharacter
    let c := s.cursor.advance (name.length + 1)
    let read :=
      if !c.separatedAt 0 then none
      else if name == "YAML".toList then versionDirective c
      else if name == "TAG".toList then tagDirective c
      else none
    match read with
    | none => none
    | some (t, c) =>
      let c := c.skipBlanks
      let c := if c.sees '#' then c.skipLine else c
      let s := { s with keyAllowed := false }.emit t
      match c.lineBreak? with
      | some (_, next) => some { s with cursor := next }
      | none => if c.rest.isEmpty then some { s with cursor := c } else none

/-- Whether a character may start a scalar without quotes, given the one after it. -/
def startsPlain (inFlow : Bool) (x : Char) (next : Option Char) : Bool :=
  !(separates x || "-?:,[]\x7b\x7d#&*!|>'\"%@\x60".toList.contains x) ||
    (x == '-' && !next.any isSpaceOrTab) ||
    (!inFlow && (x == '?' || x == ':') && !next.all separates)

def token (s : Scanner) (x : Char) : Option Scanner :=
  let c := s.cursor
  if c.column = 0 ∧ x = '%' then s.directive
  else if c.atDocumentMark then s.documentMark (if x = '-' then .documentStart else .documentEnd)
  else if x = '[' then s.openBracket .flowSequenceStart
  else if x = '\x7b' then s.openBracket .flowMappingStart
  else if x = ']' then s.closeBracket .flowSequenceEnd
  else if x = '\x7d' then s.closeBracket .flowMappingEnd
  else if x = ',' then s.dropKey.map fun s => (s.mark .flowEntry 1 true).skipLineComment
  else if x = '-' ∧ c.separatedAt 1 then s.blockEntry
  else if x = '?' ∧ (s.inFlow ∨ c.separatedAt 1) then s.explicitKey
  else if x = ':' ∧ (s.inFlow ∨ c.separatedAt 1) then s.value
  else if x = '*' then s.reference .alias
  else if x = '&' then s.reference .anchor
  else if x = '!' then s.tag
  else if x = '|' ∧ !s.inFlow then s.lines true
  else if x = '>' ∧ !s.inFlow then s.lines false
  else if x = '\'' then s.quotedScalar false
  else if x = '"' then s.quotedScalar true
  else if startsPlain s.inFlow x (c.peek? 1) then s.plainScalar
  else none

/-- The next token with the ends of blocks before it; at the end of the document, the last token and
`true`. -/
def step (s : Scanner) : Option (Scanner × Bool) :=
  let s := s.skipToToken (s.cursor.rest.length + 1)
  let s := s.unroll s.cursor.column
  match s.cursor.head? with
  | some x => (s.token x).map (·, false)
  | none => (s.unroll (-1)).dropKey.map fun s => (s.emit .streamEnd, true)

/-- All tokens, and whether they are all there are: they stop before the first mistake. -/
def run : (fuel : Nat) → Scanner → List Token × Bool
  | 0, s => (s.tokens, false)
  | fuel + 1, s =>
    match s.step with
    | none => (s.tokens, false)
    | some (s, true) => (s.tokens, true)
    | some (s, false) => run fuel s

end Scanner

/-- The tokens of a document up to the first mistake, and whether there is none. Every token but the
last takes at least one character. -/
def tokens (cs : List Char) : List Token × Bool :=
  Scanner.run (cs.length + 1) { cursor := { rest := cs } }

end Yaml

end Runsheet
