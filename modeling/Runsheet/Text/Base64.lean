import Runsheet.Text

/-!
Bytes as letters, digits, `+` and `/`, four for every three bytes.
-/
namespace Runsheet

namespace Base64

def symbol (n : Nat) : UInt8 :=
  if n < 26 then (n + 65).toUInt8
  else if n < 52 then (n + 71).toUInt8
  else if n < 62 then (n - 4).toUInt8
  else if n = 62 then 43
  else 47

/-- The characters of a text, filled up with `=` to a multiple of four. -/
def encode : Text → Text
  | [] => []
  | [a] =>
    let n := a.toNat * 16
    [symbol (n / 64), symbol (n % 64), 61, 61]
  | [a, b] =>
    let n := (a.toNat * 256 + b.toNat) * 4
    [symbol (n / 4096), symbol (n / 64 % 64), symbol (n % 64), 61]
  | a :: b :: c :: rest =>
    let n := (a.toNat * 256 + b.toNat) * 256 + c.toNat
    [symbol (n / 262144), symbol (n / 4096 % 64), symbol (n / 64 % 64), symbol (n % 64)] ++
      encode rest

def bits? (b : UInt8) : Option Nat :=
  if 65 ≤ b ∧ b ≤ 90 then some (b.toNat - 65)
  else if 97 ≤ b ∧ b ≤ 122 then some (b.toNat - 71)
  else if 48 ≤ b ∧ b ≤ 57 then some (b.toNat + 4)
  else if b = 43 then some 62
  else if b = 47 then some 63
  else none

/-- The bytes of groups of four characters. Only the last group may be filled up. -/
def groups? : Text → Option Text
  | [] => some []
  | [a, b, 61, 61] => do
    let n := (← bits? a) * 64 + (← bits? b)
    return [(n / 16).toUInt8]
  | [a, b, c, 61] => do
    let n := ((← bits? a) * 64 + (← bits? b)) * 64 + (← bits? c)
    return [(n / 1024).toUInt8, (n / 4).toUInt8]
  | a :: b :: c :: d :: rest => do
    let n := (((← bits? a) * 64 + (← bits? b)) * 64 + (← bits? c)) * 64 + (← bits? d)
    return (n / 65536).toUInt8 :: (n / 256).toUInt8 :: n.toUInt8 :: (← groups? rest)
  | _ => none

/-- The bytes that characters stand for. Line breaks do not count. -/
def decode? (t : Text) : Option Text := groups? (t.filter fun b => b != 10 && b != 13)

end Base64

end Runsheet
