import Runsheet.Dyadic

/-!
Lengths of time in nanoseconds, written as numbers with units.
-/
namespace Runsheet

/-- A length of time in nanoseconds, of 64 bits with a sign. -/
structure Duration where
  nanoseconds : Int
  deriving DecidableEq, Repr

namespace Duration

def unit? (t : Text) : Option Nat :=
  if t = "ns" then some 1
  else if t = "us" ∨ t = "µs" ∨ t = "μs" then some 1000
  else if t = "ms" then some 1000000
  else if t = "s" then some 1000000000
  else if t = "m" then some 60000000000
  else if t = "h" then some 3600000000000
  else none

/-- The size of the longest time below zero; above zero the longest is one less. -/
def maxSize : Nat := 0x8000000000000000

/-- The digits of a fraction that count: as many as make a number of at most 63 bits. -/
def fractionDigits : (value : Nat) → Text → Nat × Nat
  | value, [] => (value, 0)
  | value, d :: rest =>
    let next := value * 10 + (d.toNat - 48)
    if value > (maxSize - 1) / 10 ∨ next > maxSize then (value, 0)
    else
      let (v, n) := fractionDigits next rest
      (v, n + 1)

/-- The whole nanoseconds of a fraction of a unit, computed with 53 bits. -/
def fractionOf (digits : Text) (unit : Nat) : Nat :=
  let (value, places) := fractionDigits 0 digits
  ((Dyadic.nearest value 1).mul (Dyadic.nearest unit (Nat.pow 10 places))).floor

def isNumeric (b : UInt8) : Bool := Decimal.isDigit b || b == 46

/-- One number with its unit, in nanoseconds, and the rest. -/
def term? (t : Text) : Option (Nat × Text) :=
  let whole := t.takeWhile Decimal.isDigit
  let t := t.drop whole.length
  let (fraction, t) := match t with
    | 46 :: rest => (rest.takeWhile Decimal.isDigit, rest.dropWhile Decimal.isDigit)
    | _ => ([], t)
  let name := t.takeWhile (!isNumeric ·)
  match unit? name with
  | none => none
  | some unit =>
    let count := (Decimal.ofDigits? whole).getD 0
    let amount := count * unit + fractionOf fraction unit
    if (whole.isEmpty && fraction.isEmpty) || count > maxSize / unit || amount > maxSize then none
    else some (amount, t.drop name.length)

/-- The sum of the terms. The fuel bounds their number. -/
def terms? : (fuel : Nat) → (sum : Nat) → Text → Option Nat
  | _, sum, [] => some sum
  | 0, _, _ => none
  | fuel + 1, sum, t =>
    match term? t with
    | some (amount, rest) => if sum + amount > maxSize then none else terms? fuel (sum + amount) rest
    | none => none

/-- Reads a length of time: a sign and terms, or a zero without a unit. -/
def parse? (t : Text) : Option Duration :=
  let (negative, t) := Decimal.sign t
  if t = "0" then some ⟨0⟩
  else if t.isEmpty then none
  else
    match terms? t.length 0 t with
    | none => none
    | some n =>
      if negative then some ⟨-n⟩ else if n < maxSize then some ⟨n⟩ else none

/-- A number of so many places after the point, without zeros at its end. -/
def shownFraction (n places : Nat) : Text :=
  let fraction := Text.dropEnd 48 ((Text.decimal (n % Nat.pow 10 places)).padLeft places 48)
  Text.decimal (n / Nat.pow 10 places) ++ Text.onlyIf (!fraction.isEmpty) ("." ++ fraction)

/-- The text of a size. Below a second it is one number; from a second on, seconds with the minutes
and hours before them. -/
def sizeText (n : Nat) : Text :=
  if n = 0 then "0s"
  else if n < 1000 then Text.decimal n ++ "ns"
  else if n < 1000000 then shownFraction n 3 ++ "µs"
  else if n < 1000000000 then shownFraction n 6 ++ "ms"
  else
    let minutes := n / 60000000000
    let seconds : Text := shownFraction (n % 60000000000) 9 ++ "s"
    if minutes = 0 then seconds
    else if minutes < 60 then Text.decimal minutes ++ "m" ++ seconds
    else Text.decimal (minutes / 60) ++ "h" ++ Text.decimal (minutes % 60) ++ "m" ++ seconds

def text (d : Duration) : Text :=
  Text.onlyIf (d.nanoseconds < 0) "-" ++ sizeText d.nanoseconds.natAbs

end Duration

end Runsheet
