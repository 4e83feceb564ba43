import Runsheet.Text

/-!
Numbers written in digits. A decimal is kept exactly, as digits and a power of ten.
-/
namespace Runsheet

namespace Decimal

def isDigit (b : UInt8) : Bool := 48 ≤ b && b ≤ 57

def digitValue (b : UInt8) : Option Nat :=
  if isDigit b then some (b.toNat - 48)
  else if 97 ≤ b ∧ b ≤ 122 then some (b.toNat - 87)
  else if 65 ≤ b ∧ b ≤ 90 then some (b.toNat - 55)
  else none

/-- The number that digits of a base spell. There is at least one digit. -/
def ofBase? (base : Nat) (t : Text) : Option Nat :=
  if t.isEmpty then none
  else t.foldlM (fun n b =>
    match digitValue b with
    | some d => if d < base then some (n * base + d) else none
    | none => none) 0

def ofDigits? (t : Text) : Option Nat := ofBase? 10 t

/-- The sign in front of a number, if any, and the rest. -/
def sign (t : Text) : Bool × Text :=
  match t with
  | 45 :: rest => (true, rest)
  | 43 :: rest => (false, rest)
  | _ => (false, t)

/-- A number without a sign whose base is told by how it starts: `0x`, `0b`, `0o`, or a zero for
octal. -/
def natural? (t : Text) : Option Nat :=
  match t with
  | [48] => some 0
  | 48 :: b :: rest =>
    if b = 120 ∨ b = 88 then ofBase? 16 rest
    else if b = 98 ∨ b = 66 then ofBase? 2 rest
    else if b = 111 ∨ b = 79 then ofBase? 8 rest
    else ofBase? 8 (b :: rest)
  | _ => ofBase? 10 t

end Decimal

/-- `mantissa * 10 ^ exponent`, below zero if so marked. -/
structure Decimal where
  negative : Bool
  mantissa : Nat
  exponent : Int
  deriving DecidableEq, Repr

namespace Decimal

/-- The exponent at the end of a decimal; none at all counts as zero. -/
def exponent? (t : Text) : Option Int :=
  match t with
  | [] => some 0
  | b :: rest =>
    if b = 101 ∨ b = 69 then
      let (negative, digits) := sign rest
      (ofDigits? digits).map fun n => if negative then -(n : Int) else n
    else none

/-- Reads digits with at most one point among them, which needs a digit on one side, and an
exponent. -/
def parse? (t : Text) : Option Decimal :=
  let (negative, t) := sign t
  let whole := t.takeWhile isDigit
  let t := t.dropWhile isDigit
  let (fraction, t) := match t with
    | 46 :: rest => (rest.takeWhile isDigit, rest.dropWhile isDigit)
    | _ => ([], t)
  match exponent? t, ofDigits? (whole ++ fraction) with
  | some e, some n => some ⟨negative, n, e - fraction.length⟩
  | _, _ => none

/-- Whether the size of a decimal goes beyond the largest double, halfway to the next power of two
included. -/
def overflows (d : Decimal) : Bool :=
  let digits := (Nat.toDigits 10 d.mantissa).length
  if d.mantissa = 0 ∨ d.exponent + digits < 300 then false
  else if d.exponent + digits > 320 then true
  else
    let limit := Nat.pow 2 1024 - Nat.pow 2 970
    if d.exponent ≥ 0 then d.mantissa * Nat.pow 10 d.exponent.toNat ≥ limit
    else d.mantissa ≥ limit * Nat.pow 10 (-d.exponent).toNat

end Decimal

end Runsheet
