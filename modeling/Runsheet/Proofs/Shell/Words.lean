import Runsheet.Proofs.Text.Utf8
import Runsheet.Plan

/-! How a shell reads a line as words, in the grammar of bash and in a UTF-8 locale. The reader takes
a line only if it is words and nothing else: it refuses what outside of quotes is an operator, a
comment, a pattern, or the start of an expansion or an assignment, what between double quotes starts
an expansion, and a reserved word where a command begins. -/
namespace Runsheet

namespace Shell

/-- The words that are reserved where a command begins, as the manual of the shell lists them. -/
def reservedWords : List String :=
  ["if", "then", "elif", "else", "fi", "time", "for", "in", "until", "while", "do", "done", "case",
    "esac", "coproc", "select", "function", "\x7b", "\x7d", "[[", "]]", "!"]

/-- Bytes that outside of quotes are not read as themselves, other than quotes, the backslash, the
dollar sign and blanks: line feed, and those of operators, comments, home directories, patterns,
braces, assignments and substitutions. -/
def isActive (b : UInt8) : Bool := (Text.ofString "\n|&;()<>#~*?[\x7b=\x60").contains b

/-- What the next byte of a line stands in. A number is the part of an escape that is made of digits:
their base, how many more there may be, their value if there were any, and whether it is a code
point. -/
inductive ReadMode
  | bare
  | escape
  | dollar
  | single
  | double
  | doubleEscape
  | ansi
  | ansiEscape
  | ansiControl
  | number (base room : Nat) (value : Option Nat) (isCode : Bool)
  deriving DecidableEq, Repr

/-- A line that has been read in part: the words that are complete, and the one that has begun. It is
plain as long as none of it was in quotes. -/
structure Reader where
  words : List Text := []
  word : Option Text := none
  isPlain : Bool := true
  mode : ReadMode := .bare
  deriving DecidableEq, Repr

/-- What a letter or a mark stands for after a backslash between `$'` and `'`. -/
def ansiLetters : List (UInt8 × UInt8) :=
  [(97, 7), (98, 8), (101, 27), (69, 27), (102, 12), (110, 10), (114, 13), (116, 9), (118, 11),
    (92, 92), (39, 39), (34, 34), (63, 63)]

def digit? (base : Nat) (b : UInt8) : Option Nat :=
  let value := if 48 ≤ b ∧ b ≤ 57 then b.toNat - 48
    else if 97 ≤ b ∧ b ≤ 102 then b.toNat - 87
    else if 65 ≤ b ∧ b ≤ 70 then b.toNat - 55
    else base
  if value < base then some value else none

namespace Reader

/-- Adds bytes to the word, which begins with them if there was none. -/
def add (r : Reader) (t : Text) : Reader := { r with word := some (r.word.getD [] ++ t) }

/-- Adds a byte to the word. No word holds a zero byte. -/
def put (r : Reader) (b : UInt8) : Option Reader := if b = 0 then none else some (r.add [b])

def into (r : Reader) (mode : ReadMode) : Reader := { r with mode }

/-- Opens quotes, or takes a backslash; the word is not plain from there on. -/
def enter (r : Reader) (mode : ReadMode) : Reader := { r.add [] with isPlain := false, mode }

/-- Ends the word that has begun. A plain reserved word cannot begin a command. -/
def endWord (r : Reader) : Option Reader :=
  match r.word with
  | none => some r
  | some w =>
    if r.words.isEmpty && r.isPlain && reservedWords.any (w == Text.ofString ·) then none
    else some { words := r.words ++ [w] }

def putNumber (r : Reader) (value : Nat) (isCode : Bool) : Option Reader :=
  if isCode then
    if value ≠ 0 ∧ value.isValidChar then
      some (r.add (String.utf8EncodeChar (Char.ofNat value)))
    else none
  else r.put (UInt8.ofNat value)

def stepBare (r : Reader) (b : UInt8) : Option Reader :=
  if b = 32 ∨ b = 9 then r.endWord
  else if b = 39 then some (r.enter .single)
  else if b = 34 then some (r.enter .double)
  else if b = 92 then some (r.enter .escape)
  else if b = 36 then some (r.into .dollar)
  else if isActive b then none
  else r.put b

def stepDouble (r : Reader) (b : UInt8) : Option Reader :=
  if b = 34 then some (r.into .bare)
  else if b = 92 then some (r.into .doubleEscape)
  else if b = 36 ∨ b = 96 then none
  else r.put b

/-- Takes a byte after a backslash between double quotes. The backslash stays unless the byte has a
meaning there; a line that goes on is refused. -/
def stepDoubleEscape (r : Reader) (b : UInt8) : Option Reader :=
  if b = 34 ∨ b = 92 ∨ b = 96 ∨ b = 36 then (r.into .double).put b
  else if b = 10 then none
  else ((r.into .double).add [92]).put b

/-- Takes a byte between `$'` and `'`. -/
def stepAnsi (r : Reader) (b : UInt8) : Option Reader :=
  if b = 39 then some (r.into .bare)
  else if b = 92 then some (r.into .ansiEscape)
  else r.put b

/-- Takes a byte after a backslash between `$'` and `'`. An escape that is none stays as it is. -/
def stepAnsiEscape (r : Reader) (b : UInt8) : Option Reader :=
  match ansiLetters.lookup b with
  | some c => (r.into .ansi).put c
  | none =>
    if b = 120 then some (r.into (.number 16 2 none false))
    else if b = 117 then some (r.into (.number 16 4 none true))
    else if b = 85 then some (r.into (.number 16 8 none true))
    else if b = 99 then some (r.into .ansiControl)
    else match digit? 8 b with
      | some d => some (r.into (.number 8 2 (some d) false))
      | none => ((r.into .ansi).add [92]).put b

/-- Takes a letter after `\c` between `$'` and `'`; what is no letter and no `?` is refused. -/
def stepAnsiControl (r : Reader) (b : UInt8) : Option Reader :=
  if b = 63 then (r.into .ansi).put 127
  else if 97 ≤ b ∧ b ≤ 122 then (r.into .ansi).put (b - 96)
  else if 65 ≤ b ∧ b ≤ 90 then (r.into .ansi).put (b - 64)
  else none

/-- Takes a byte where a digit of an escape may stand. The escape ends with its last digit, or before
what is no digit; one without digits is refused. -/
def stepNumber (r : Reader) (base room : Nat) (value : Option Nat) (isCode : Bool) (b : UInt8) :
    Option Reader :=
  match digit? base b, value with
  | some d, _ =>
    let value := value.getD 0 * base + d
    if room = 1 then (r.into .ansi).putNumber value isCode
    else some (r.into (.number base (room - 1) (some value) isCode))
  | none, some value => ((r.into .ansi).putNumber value isCode).bind (·.stepAnsi b)
  | none, none => none

/-- Takes a byte of a line. -/
def step (r : Reader) (b : UInt8) : Option Reader :=
  match r.mode with
  | .bare => r.stepBare b
  | .escape => if b = 10 then none else (r.into .bare).put b
  | .dollar => if b = 39 then some (r.enter .ansi) else none
  | .single => if b = 39 then some (r.into .bare) else r.put b
  | .double => r.stepDouble b
  | .doubleEscape => r.stepDoubleEscape b
  | .ansi => r.stepAnsi b
  | .ansiEscape => r.stepAnsiEscape b
  | .ansiControl => r.stepAnsiControl b
  | .number base room value isCode => r.stepNumber base room value isCode b

/-- The words of a line that has been read to its end, unless it ends in quotes or in an escape. -/
def finish (r : Reader) : Option (List Text) :=
  if r.mode = .bare then r.endWord.map Reader.words else none

end Reader

/-- The words as which a line is read, if it is words and nothing else. -/
def words? (line : Text) : Option (List Text) := (line.foldlM Reader.step {}).bind Reader.finish

end Shell

end Runsheet
