import Runsheet.Text

/-!
Reading a text as UTF-8. Every byte belongs to exactly one rune: a well-formed sequence is one
code point, and a byte that starts no well-formed sequence stands alone. So every text has a rune
view and gets its bytes back from it.
-/
namespace Runsheet

/-- A code point, or a byte that starts no well-formed sequence. -/
inductive Rune
  | char (c : Char)
  | invalid (b : UInt8)
  deriving DecidableEq, Repr

namespace Rune

def bytes : Rune → Text
  | char c => String.utf8EncodeChar c
  | invalid b => [b]

/-- The code point of a rune, the replacement character for a stray byte. -/
def code : Rune → Nat
  | char c => c.toNat
  | invalid _ => 0xfffd

def isTail (b : UInt8) : Bool := 0x80 ≤ b && b ≤ 0xbf

/-- The bounds of the byte after a lead byte: tighter where a longer form would spell a shorter
one, a surrogate or a number past the last code point. -/
def secondRange (lead : UInt8) : UInt8 × UInt8 :=
  if lead = 0xe0 then (0xa0, 0xbf)
  else if lead = 0xed then (0x80, 0x9f)
  else if lead = 0xf0 then (0x90, 0xbf)
  else if lead = 0xf4 then (0x80, 0x8f)
  else (0x80, 0xbf)

def isSecond (lead b : UInt8) : Bool := (secondRange lead).1 ≤ b && b ≤ (secondRange lead).2

/-- The six bits a continuation byte carries. -/
def payload (b : UInt8) : Nat := b.toNat - 0x80

/-- The rune that a byte starts, with the number of further bytes it takes from those that follow. -/
def first (b : UInt8) (rest : Text) : Rune × Nat :=
  if b < 0x80 then (char (Char.ofNat b.toNat), 0)
  else if 0xc2 ≤ b ∧ b < 0xe0 then
    match rest with
    | c :: _ =>
      if isTail c then (char (Char.ofNat ((b.toNat - 0xc0) * 0x40 + payload c)), 1)
      else (invalid b, 0)
    | _ => (invalid b, 0)
  else if 0xe0 ≤ b ∧ b < 0xf0 then
    match rest with
    | c :: d :: _ =>
      if isSecond b c && isTail d then
        (char (Char.ofNat ((b.toNat - 0xe0) * 0x1000 + payload c * 0x40 + payload d)), 2)
      else (invalid b, 0)
    | _ => (invalid b, 0)
  else if 0xf0 ≤ b ∧ b < 0xf5 then
    match rest with
    | c :: d :: e :: _ =>
      if isSecond b c && isTail d && isTail e then
        (char (Char.ofNat
          ((b.toNat - 0xf0) * 0x40000 + payload c * 0x1000 + payload d * 0x40 + payload e)), 3)
      else (invalid b, 0)
    | _ => (invalid b, 0)
  else (invalid b, 0)

end Rune

namespace Text

/-- The runes of a text of which the first `owed` bytes belong to a rune already read. -/
def runesAfter : (owed : Nat) → Text → List Rune
  | _, [] => []
  | owed + 1, _ :: rest => runesAfter owed rest
  | 0, b :: rest => (Rune.first b rest).1 :: runesAfter (Rune.first b rest).2 rest

/-- The rune view of a text. -/
def runes (t : Text) : List Rune := runesAfter 0 t

def ofRunes (rs : List Rune) : Text := rs.flatMap Rune.bytes

def isUtf8 (t : Text) : Bool := t.runes.all fun
  | .char _ => true
  | .invalid _ => false

end Text

end Runsheet
