import Runsheet.Yaml.Characters

/-!
The tokens of a document, and the place in the document that a scanner has reached.
-/
namespace Runsheet

namespace Yaml

/-- One token. Starts and ends of blocks come from indentation; a key token stands before every key,
also where the document marks none. -/
inductive Token
  | documentStart
  | documentEnd
  | blockSequenceStart
  | blockMappingStart
  | blockEnd
  | flowSequenceStart
  | flowSequenceEnd
  | flowMappingStart
  | flowMappingEnd
  | blockEntry
  | flowEntry
  | key
  | value
  | alias (name : Text)
  | anchor (name : Text)
  | tag (handle suffix : Text)
  | scalar (content : Text) (plain : Bool)
  | version (major minor : Nat)
  | tagHandle (handle lead : Text)
  | streamEnd
  deriving DecidableEq, Repr

/-- What is left of a document, with the line, the column and the number of characters before it. -/
structure Cursor where
  rest : List Char
  line : Nat := 0
  column : Nat := 0
  index : Nat := 0
  deriving DecidableEq, Repr

def isLineBreak (c : Char) : Bool :=
  c = '\n' || c = '\r' || c.toNat = 0x85 || c.toNat = 0x2028 || c.toNat = 0x2029

def isSpaceOrTab (c : Char) : Bool := c = ' ' || c = '\t'

def separates (c : Char) : Bool := isSpaceOrTab c || isLineBreak c

/-- Whether a character may stand in the name of an anchor or a tag handle. -/
def isNameCharacter (c : Char) : Bool := c.isAlphanum || c = '_' || c = '-'

namespace Cursor

def head? (c : Cursor) : Option Char := c.rest.head?

def peek? (c : Cursor) (n : Nat) : Option Char := c.rest[n]?

def sees (c : Cursor) (x : Char) : Bool := c.head? == some x

def seesAll (c : Cursor) (xs : List Char) : Bool := xs.isPrefixOf c.rest

/-- Whether a blank, a line break or the end comes after so many characters. -/
def separatedAt (c : Cursor) (n : Nat) : Bool := (c.peek? n).all separates

def advance (c : Cursor) (n : Nat) : Cursor :=
  { c with rest := c.rest.drop n, column := c.column + n, index := c.index + n }

def skipWhile (p : Char → Bool) (c : Cursor) : Cursor := c.advance (c.rest.takeWhile p).length

def skipBlanks (c : Cursor) : Cursor := c.skipWhile isSpaceOrTab

def skipLine (c : Cursor) : Cursor := c.skipWhile (!isLineBreak ·)

/-- The line break that comes next, as the content of a scalar keeps it, and the place after it. -/
def lineBreak? (c : Cursor) : Option (Char × Cursor) :=
  match c.rest with
  | '\r' :: '\n' :: rest => some ('\n', ⟨rest, c.line + 1, 0, c.index + 2⟩)
  | x :: rest =>
    if isLineBreak x then
      let kept := if x.toNat = 0x2028 ∨ x.toNat = 0x2029 then x else '\n'
      some (kept, ⟨rest, c.line + 1, 0, c.index + 1⟩)
    else none
  | [] => none

def atDocumentMark (c : Cursor) : Bool :=
  c.column == 0 && (c.seesAll "---".toList || c.seesAll "...".toList) && c.separatedAt 3

/-- The place after a comment and after the comments that follow it with nothing but white space
between them. It is at the end of a line. The fuel bounds the number of comments. -/
def skipComments : (fuel : Nat) → Cursor → Cursor
  | 0, c => c.skipLine
  | fuel + 1, c =>
    let stop := c.skipLine
    let next := overWhite stop.rest.length stop
    if next.sees '#' then skipComments fuel next else stop
where
  /-- Goes over white space and line breaks. -/
  overWhite : Nat → Cursor → Cursor
    | 0, c => c
    | fuel + 1, c =>
      match c.skipBlanks.lineBreak? with
      | some (_, next) => overWhite fuel next
      | none => c.skipBlanks

end Cursor

end Yaml

end Runsheet
