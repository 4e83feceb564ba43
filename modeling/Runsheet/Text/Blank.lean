import Runsheet.Text.Utf8

/-!
The white space of Unicode, and texts without it at their ends.
-/
namespace Runsheet

/-- Ranges of the `White_Space` property. -/
def blankRanges : List (Nat × Nat) :=
  [(0x9, 0xd), (0x20, 0x20), (0x85, 0x85), (0xa0, 0xa0), (0x1680, 0x1680), (0x2000, 0x200a),
    (0x2028, 0x2029), (0x202f, 0x202f), (0x205f, 0x205f), (0x3000, 0x3000)]

/-- Whether a rune is white space; a stray byte never is. -/
def Rune.isBlank : Rune → Bool
  | .char c => blankRanges.any fun (low, high) => low ≤ c.toNat && c.toNat ≤ high
  | .invalid _ => false

/-- The text without leading and trailing white space. -/
def Text.trim (t : Text) : Text :=
  Text.ofRunes ((t.runes.dropWhile Rune.isBlank).reverse.dropWhile Rune.isBlank).reverse

end Runsheet
