/-!
Texts are byte sequences. Scripts, labels and file names may hold any bytes, so nothing below
assumes UTF-8; the modules under `Text` say how a text reads as code points.
-/
namespace Runsheet

/-- A sequence of bytes, usually but not necessarily UTF-8. -/
abbrev Text := List UInt8

namespace Text

def ofString (s : String) : Text := s.toList.flatMap String.utf8EncodeChar

instance : Coe String Text := ⟨ofString⟩

def ascii (c : Char) : UInt8 := c.toNat.toUInt8

/-- A text under a condition, nothing otherwise. -/
def onlyIf (condition : Bool) (t : Text) : Text := if condition then t else []

def decimal (n : Nat) : Text := ofString (Nat.repr n)

/-- Decimal digits of an integer, with a minus sign below zero. -/
def decimalInt (i : Int) : Text :=
  if i < 0 then "-" ++ decimal i.natAbs else decimal i.natAbs

/-- The given number of copies of a byte. -/
def fill (n : Nat) (b : UInt8) : Text := List.replicate n b

/-- Fills up on the left to the given number of bytes; a longer text is left alone. -/
def padLeft (width : Nat) (b : UInt8) (t : Text) : Text := fill (width - t.length) b ++ t

/-- One hexadecimal digit, in lower case. -/
def hexDigit (n : Nat) : UInt8 :=
  if n < 10 then (n + 48).toUInt8 else (n + 87).toUInt8

/-- Exactly `width` hexadecimal digits of a number, most significant first. -/
def hexFixed : (width : Nat) → Nat → Text
  | 0, _ => []
  | w + 1, n => hexFixed w (n / 16) ++ [hexDigit (n % 16)]

/-- Two lower-case hexadecimal digits a byte. -/
def hex (t : Text) : Text := t.flatMap fun b => hexFixed 2 b.toNat

def join (separator : Text) (parts : List Text) : Text := separator.intercalate parts

/-- Every part but the first comes after a separator. -/
theorem join_cons (separator first : Text) (parts : List Text) :
    join separator (first :: parts) = first ++ parts.flatMap (separator ++ ·) := by
  induction parts generalizing first with
  | nil => simp [join]
  | cons second parts ih =>
    rw [join, List.intercalate_cons_cons, ← join, ih second, List.flatMap_cons, List.append_assoc,
      List.append_assoc]

/-- The parts between the occurrences of a byte, one more than there are occurrences. -/
def splitAt (b : UInt8) : Text → List Text
  | [] => [[]]
  | c :: rest =>
    if c = b then [] :: splitAt b rest
    else match splitAt b rest with
      | part :: parts => (c :: part) :: parts
      | [] => [[c]]

/-- The parts before and after the first occurrence of a byte. -/
def cut (b : UInt8) : Text → Option (Text × Text)
  | [] => none
  | c :: rest => if c = b then some ([], rest) else (cut b rest).map fun (l, r) => (c :: l, r)

def dropEnd (b : UInt8) (t : Text) : Text := (t.reverse.dropWhile (· == b)).reverse

def startsWith (t lead : Text) : Bool := lead.isPrefixOf t

/-- ASCII capitals made small, every other byte kept. -/
def asciiLower (b : UInt8) : UInt8 := if 65 ≤ b ∧ b ≤ 90 then b + 32 else b

def equalsIgnoringCase (s t : Text) : Bool := s.map asciiLower == t.map asciiLower

/-- The order by bytes in which a shorter text comes before its extensions. -/
def precedes : Text → Text → Bool
  | [], [] => false
  | [], _ :: _ => true
  | _ :: _, [] => false
  | a :: s, b :: t => if a = b then precedes s t else a < b

def sort (ts : List Text) : List Text := ts.mergeSort fun a b => !precedes b a

end Text

end Runsheet
