import Runsheet.Decimal

/-!
Backslash sequences in what `echo` and `printf` write. The tools on their own and the ones built into
the shell know different sequences.
-/
namespace Runsheet

namespace Program

/-- What a backslash and the bytes after it come to: some bytes in place of so many after it, the end
of all output, or a backslash like any other byte. -/
inductive Escape
  | bytes (out : Text) (used : Nat)
  | stop
  | ordinary
  deriving DecidableEq, Repr

namespace Escape

def isOctal (b : UInt8) : Bool := 48 ≤ b && b ≤ 55

def isHex (b : UInt8) : Bool :=
  (Decimal.digitValue b).any (· < 16)

/-- The byte with the digits at the front of a text, at most so many; some bytes are used before
them. -/
def number (base limit before : Nat) (isOne : UInt8 → Bool) (t : Text) : Escape :=
  let digits := (t.take limit).takeWhile isOne
  .bytes [((Decimal.ofBase? base digits).getD 0).toUInt8] (before + digits.length)

def letter? (b : UInt8) : Option UInt8 :=
  let table : List (Char × UInt8) :=
    [('a', 7), ('b', 8), ('e', 27), ('f', 12), ('n', 10), ('r', 13), ('t', 9), ('v', 11), ('\\', 92)]
  (table.find? fun (c, _) => Text.ascii c == b).map (·.2)

def letter (b : UInt8) : Escape :=
  match letter? b with
  | some c => .bytes [c] 1
  | none => .ordinary

/-- The sequences of a format: letters and up to three octal digits. -/
def inFormat : Text → Escape
  | [] => .ordinary
  | b :: rest => if isOctal b then number 8 3 0 isOctal (b :: rest) else letter b

/-- The sequences of an argument: also `\c`, and octal digits after a zero that does not count. -/
def inArgument : Text → Escape
  | 99 :: _ => .stop
  | 48 :: d :: rest => if isOctal d then number 8 3 1 isOctal (d :: rest) else .bytes [0] 1
  | t => inFormat t

/-- Adds hexadecimal digits after `\x` to other sequences. -/
def withHex (read : Text → Escape) : Text → Escape
  | 120 :: d :: rest => if isHex d then number 16 2 1 isHex (d :: rest) else .ordinary
  | t => read t

/-- Adds `\c` and `\"` to other sequences. -/
def withQuote (read : Text → Escape) : Text → Escape
  | 99 :: _ => .stop
  | 34 :: _ => .bytes [34] 1
  | t => read t

end Escape

/-- A text with its sequences replaced, and whether one of them ended the output; the given number of
bytes is passed over. -/
def unescapeAfter (read : Text → Escape) : (owed : Nat) → Text → Text × Bool
  | _, [] => ([], false)
  | n + 1, _ :: rest => unescapeAfter read n rest
  | 0, b :: rest =>
    if b = 92 then
      match read rest with
      | .stop => ([], true)
      | .bytes out used =>
        let (following, stopped) := unescapeAfter read used rest
        (out ++ following, stopped)
      | .ordinary =>
        let (following, stopped) := unescapeAfter read 0 rest
        (92 :: following, stopped)
    else
      let (following, stopped) := unescapeAfter read 0 rest
      (b :: following, stopped)

/-- A text with its sequences replaced, and whether one of them ended the output. -/
def unescape (read : Text → Escape) (t : Text) : Text × Bool := unescapeAfter read 0 t

end Program

end Runsheet
