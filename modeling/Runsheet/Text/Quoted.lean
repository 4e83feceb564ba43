import Runsheet.Text.Printable

/-!
Texts between double quotes with every character that is not printable spelt as an escape.
-/
namespace Runsheet

/-- The letter after the backslash for the control characters that have one. -/
def controlLetter? : Nat → Option UInt8
  | 0x07 => some 97
  | 0x08 => some 98
  | 0x0c => some 102
  | 0x0a => some 110
  | 0x0d => some 114
  | 0x09 => some 116
  | 0x0b => some 118
  | _ => none

/-- The numeric escape of a code point: two, four or eight hexadecimal digits. -/
def numericEscape (code : Nat) : Text :=
  if code < 0x80 then "\\x" ++ Text.hexFixed 2 code
  else if code < 0x10000 then "\\u" ++ Text.hexFixed 4 code
  else "\\U" ++ Text.hexFixed 8 code

def Rune.quoted : Rune → Text
  | .invalid b => "\\x" ++ Text.hexFixed 2 b.toNat
  | .char c =>
    if c = '"' then "\\\""
    else if c = '\\' then "\\\\"
    else if Runsheet.isPrintable c.toNat then String.utf8EncodeChar c
    else match controlLetter? c.toNat with
      | some letter => [92, letter]
      | none => numericEscape c.toNat

/-- The text in double quotes, with backslash escapes for quotes, backslashes, stray bytes and
what is not printable. -/
def Text.quoted (t : Text) : Text := "\"" ++ t.runes.flatMap Rune.quoted ++ "\""

end Runsheet
