import Runsheet.Decimal

/-!
The lexemes of a shell script: words made of pieces, and operators. Quotes and backslashes are gone
from the pieces; whether a piece stood in quotes is kept, because only bare ones are split into fields.
-/
namespace Runsheet

namespace Shell

inductive Piece
  | text (t : Text) (quoted : Bool)
  | parameter (name : Text) (quoted : Bool)
  deriving DecidableEq, Repr

/-- A lexeme with the line on which it ends. A redirection may carry the number of a stream. -/
inductive Lexeme
  | word (pieces : List Piece) (line : Nat)
  | operator (symbol : Text) (line : Nat)
  | redirection (stream : Option Nat) (symbol : Text)
  deriving DecidableEq, Repr

/-- What a byte stands in. -/
inductive Quoting
  | bare
  | single
  | double
  deriving DecidableEq, Repr

/-- What came right before a byte. -/
inductive Pending
  | nothing
  | backslash
  | dollar
  | name (t : Text)
  | braced (t : Text)
  | comment
  deriving DecidableEq, Repr

/-- A scan under way: the lexemes so far, the last first, and the pieces of the word that has begun,
the last first. -/
structure Scan where
  lexemes : List Lexeme := []
  pieces : Option (List Piece) := none
  quoting : Quoting := .bare
  pending : Pending := .nothing
  touching : Bool := false
  line : Nat := 1
  deriving DecidableEq, Repr

namespace Scan

def isQuoted (s : Scan) : Bool := s.quoting != .bare

def add (s : Scan) (p : Piece) : Scan :=
  { s with pieces := some (p :: s.pieces.getD []), touching := false }

/-- Adds bytes to the word, to its last piece where that is of the same sort. -/
def addText (s : Scan) (t : Text) (quoted : Bool) : Scan :=
  match s.pieces with
  | some (.text u q :: rest) =>
    if q = quoted then { s with pieces := some (.text (u ++ t) q :: rest) } else s.add (.text t quoted)
  | _ => s.add (.text t quoted)

def endWord (s : Scan) : Scan :=
  match s.pieces with
  | some ps => { s with lexemes := .word ps.reverse s.line :: s.lexemes, pieces := none }
  | none => s

/-- Adds an operator, to the one before it where both together are one. -/
def addOperator (s : Scan) (b : UInt8) : Scan :=
  match s.touching, s.lexemes with
  | true, .operator [c] line :: rest =>
    if c = b && (b = 38 || b = 124 || b = 59) then
      { s with lexemes := .operator [c, b] line :: rest, touching := false }
    else { s with lexemes := .operator [b] s.line :: s.lexemes }
  | true, .redirection n [62] :: rest =>
    if b = 38 then { s with lexemes := .redirection n [62, 38] :: rest, touching := false }
    else { s with lexemes := .operator [b] s.line :: s.lexemes }
  | _, _ => { s with lexemes := .operator [b] s.line :: s.lexemes, touching := true }

/-- Adds a redirection; a word of digits right before it is the number of its stream. -/
def addRedirection (s : Scan) (b : UInt8) : Scan :=
  match s.pieces, s.touching, s.lexemes with
  | none, true, .redirection n [62] :: rest =>
    { s with lexemes := .redirection n [62, b] :: rest, touching := false }
  | some [.text t false], _, _ =>
    match Decimal.ofDigits? t with
    | some n =>
      { s with lexemes := .redirection (some n) [b] :: s.lexemes, pieces := none, touching := true }
    | none =>
      let s := s.endWord
      { s with lexemes := .redirection none [b] :: s.lexemes, touching := true }
  | _, _, _ =>
    let s := s.endWord
    { s with lexemes := .redirection none [b] :: s.lexemes, touching := true }

def startsName (b : UInt8) : Bool := (97 ≤ b && b ≤ 122) || (65 ≤ b && b ≤ 90) || b == 95

def isSpecialParameter (b : UInt8) : Bool :=
  Decimal.isDigit b || (Text.ofString "@*#?$!-").contains b

def escapesInQuotes (b : UInt8) : Bool := (Text.ofString "$\x60\"\\").contains b

/-- Takes a byte before which nothing is pending. -/
def plain (s : Scan) (b : UInt8) : Scan :=
  match s.quoting with
  | .single => if b = 39 then { s with quoting := .bare } else s.addText [b] true
  | .double =>
    if b = 34 then { s with quoting := .bare }
    else if b = 92 then { s with pending := .backslash }
    else if b = 36 then { s with pending := .dollar }
    else s.addText [b] true
  | .bare =>
    if b = 39 then { s.addText [] true with quoting := .single }
    else if b = 34 then { s.addText [] true with quoting := .double }
    else if b = 92 then { s with pending := .backslash }
    else if b = 36 then { s with pending := .dollar }
    else if b = 32 || b = 9 then { s.endWord with touching := false }
    else if b = 35 && s.pieces.isNone then { s with pending := .comment, touching := false }
    else if b = 62 || b = 60 then s.addRedirection b
    else if b = 10 || (Text.ofString ";&|()").contains b then s.endWord.addOperator b
    else s.addText [b] false

/-- Ends a parameter whose name is complete; a dollar sign without a name is an ordinary byte. -/
def settle (s : Scan) : Scan :=
  match s.pending with
  | .dollar => { s with pending := .nothing }.addText [36] s.isQuoted
  | .name t => { s with pending := .nothing }.add (.parameter t s.isQuoted)
  | _ => s

/-- Takes a byte. -/
def pend (s : Scan) (b : UInt8) : Scan :=
  match s.pending with
  | .nothing => s.plain b
  | .backslash =>
    let s := { s with pending := .nothing }
    if b = 10 then s
    else if s.quoting = .double && !escapesInQuotes b then s.addText [92, b] true
    else s.addText [b] true
  | .dollar =>
    if startsName b then { s with pending := .name [b] }
    else if isSpecialParameter b then { s with pending := .nothing }.add (.parameter [b] s.isQuoted)
    else if b = 123 then { s with pending := .braced [] }
    else s.settle.plain b
  | .name t =>
    if startsName b || Decimal.isDigit b then { s with pending := .name (t ++ [b]) }
    else s.settle.plain b
  | .braced t =>
    if b = 125 then { s with pending := .nothing }.add (.parameter t s.isQuoted)
    else { s with pending := .braced (t ++ [b]) }
  | .comment => if b = 10 then { s with pending := .nothing }.plain b else s

/-- Takes a byte and counts lines. -/
def step (s : Scan) (b : UInt8) : Scan :=
  let s := s.pend b
  if b = 10 then { s with line := s.line + 1 } else s

/-- Whether the text ends between quotes. -/
def isOpen (s : Scan) : Bool :=
  s.isQuoted || match s.pending with
    | .braced _ => true
    | _ => false

def ofText (t : Text) : Scan :=
  let s := t.foldl step {}
  (match s.pending with
    | .backslash => { s with pending := .nothing }.addText [92] true
    | _ => s.settle).endWord

end Scan

end Shell

end Runsheet
