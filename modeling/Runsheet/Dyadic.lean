import Runsheet.Decimal

/-!
Numbers with 53 significant bits: a whole number times a power of two. Fractions are rounded to the
nearest one, a half to the even neighbour.
-/
namespace Runsheet

/-- `significand * 2 ^ exponent`, below zero if so marked. -/
structure Dyadic where
  negative : Bool := false
  significand : Nat
  exponent : Int
  deriving DecidableEq, Repr

namespace Dyadic

/-- A whole number, exactly. -/
def ofInt (n : Int) : Dyadic := ⟨n < 0, n.natAbs, 0⟩

/-- A quotient rounded to a whole number, a half to the even neighbour. -/
def roundQuotient (num den : Nat) : Nat :=
  let q := num / den
  let twice := 2 * (num % den)
  if twice > den ∨ (twice = den ∧ q % 2 = 1) then q + 1 else q

/-- The quotient of `num` and `den * 2 ^ e`, as two natural numbers. -/
def scaled (num den : Nat) (e : Int) : Nat × Nat :=
  (num * Nat.pow 2 (-e).toNat, den * Nat.pow 2 e.toNat)

/-- The power of two in which a fraction has 53 significant bits; not below the least one there is. -/
def exponentFor (num den : Nat) : Int :=
  let e : Int := (Nat.log2 num : Int) - Nat.log2 den - 52
  let (n, d) := scaled num den e
  max (if n / d < 0x10000000000000 then e - 1 else e) (-1074)

def nearest (num den : Nat) : Dyadic :=
  if num = 0 then ⟨false, 0, 0⟩
  else
    let e := exponentFor num den
    let (n, d) := scaled num den e
    ⟨false, roundQuotient n d, e⟩

def ofDecimal (d : Decimal) : Dyadic :=
  { nearest (d.mantissa * Nat.pow 10 d.exponent.toNat) (Nat.pow 10 (-d.exponent).toNat) with
    negative := d.negative }

def mul (x y : Dyadic) : Dyadic :=
  let e := x.exponent + y.exponent
  { nearest (x.significand * y.significand * Nat.pow 2 e.toNat) (Nat.pow 2 (-e).toNat) with
    negative := x.negative != y.negative }

def floor (x : Dyadic) : Nat :=
  x.significand * Nat.pow 2 x.exponent.toNat / Nat.pow 2 (-x.exponent).toNat

/-- Equality of values, whatever the exponents. -/
def same (x y : Dyadic) : Bool :=
  let least := min x.exponent y.exponent
  let aligned (z : Dyadic) : Nat := z.significand * Nat.pow 2 (z.exponent - least).toNat
  aligned x == aligned y && (x.negative == y.negative || x.significand == 0)

end Dyadic

end Runsheet
