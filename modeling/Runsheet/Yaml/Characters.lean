import Runsheet.Text.Utf8

/-!
The characters of a document. A document is UTF-8, or UTF-16 if it starts with the mark for that, and
has no control characters but tabs and line breaks.
-/
namespace Runsheet

namespace Yaml

def isAllowed (c : Char) : Bool :=
  let n := c.toNat
  n = 9 || n = 10 || n = 13 || (0x20 ≤ n && n ≤ 0x7e) || n = 0x85 || (0xa0 ≤ n && n ≤ 0xfffd) ||
    0x10000 ≤ n

/-- The character of a rune, none for a stray byte. -/
def wholeCharacter? : Rune → Option Char
  | .char c => some c
  | .invalid _ => none

/-- The numbers that pairs of bytes spell, none if a byte is left over. -/
def units? (highFirst : Bool) : Text → Option (List Nat)
  | [] => some []
  | [_] => none
  | a :: b :: rest =>
    let unit := if highFirst then a.toNat * 256 + b.toNat else b.toNat * 256 + a.toNat
    (units? highFirst rest).map (unit :: ·)

/-- The characters that UTF-16 units spell. A surrogate counts only as the first half of a pair. -/
def ofUnits? : List Nat → Option (List Char)
  | [] => some []
  | [u] => if 0xd800 ≤ u ∧ u < 0xe000 then none else some [Char.ofNat u]
  | u :: v :: rest =>
    if 0xd800 ≤ u ∧ u < 0xdc00 then
      if 0xdc00 ≤ v ∧ v < 0xe000 then
        (ofUnits? rest).map (Char.ofNat (0x10000 + (u - 0xd800) * 0x400 + (v - 0xdc00)) :: ·)
      else none
    else if 0xdc00 ≤ u ∧ u < 0xe000 then none
    else (ofUnits? (v :: rest)).map (Char.ofNat u :: ·)

def decoded? (t : Text) : Option (List Char) :=
  match t with
  | 0xff :: 0xfe :: rest => (units? false rest).bind ofUnits?
  | 0xfe :: 0xff :: rest => (units? true rest).bind ofUnits?
  | 0xef :: 0xbb :: 0xbf :: rest => (Text.runes rest).mapM wholeCharacter?
  | _ => t.runes.mapM wholeCharacter?

/-- The characters of a document, none if a byte or a character is out of place. -/
def characters? (t : Text) : Option (List Char) :=
  match decoded? t with
  | some cs => if cs.all isAllowed then some cs else none
  | none => none

def textOf (cs : List Char) : Text := cs.flatMap String.utf8EncodeChar

end Yaml

end Runsheet
