import Runsheet.Text.Quoted

/-!
Words for a shell: a text as the shell has to read it to get it back as one word.
-/
namespace Runsheet

namespace Shell

def isSpecial (c : Char) : Bool :=
  [';', '"', '\'', '(', ')', '$', '|', '&', '>', '<', '`', ' ', '\t', '\r', '\n', '\\', '#', '\x7b',
    '~', '*', '?', '[', '='].contains c

def reserved : List String :=
  ["!", "[[", "]]", "case", "coproc", "do", "done", "else", "esac", "fi", "for", "function", "if",
    "in", "select", "then", "time", "until", "while", "\x7b", "\x7d"]

def isReserved (t : Text) : Bool := reserved.any fun w => t == Text.ofString w

def isSpecialRune : Rune → Bool
  | .char c => isSpecial c
  | .invalid _ => false

/-- Whether a rune can only be written as an escape: a stray byte, the replacement character or
what is not printable. -/
def needsEscape : Rune → Bool
  | .char c => c.toNat = 0xfffd || !isPrintable c.toNat
  | .invalid _ => true

/-- A rune between `$'` and `'`. -/
def escaped : Rune → Text
  | .invalid b => "\\x" ++ Text.hexFixed 2 b.toNat
  | .char c =>
    if c = '\'' then "\\'"
    else if c = '\\' then "\\\\"
    else if isPrintable c.toNat && c.toNat ≠ 0xfffd then String.utf8EncodeChar c
    else match controlLetter? c.toNat with
      | some letter => [92, letter]
      | none => numericEscape c.toNat

def guarded (b : UInt8) : Text :=
  if b = 34 ∨ b = 92 ∨ b = 96 ∨ b = 36 then [92, b] else [b]

/-- A text as a shell word: as it is when that is one plain word, else in the mildest quotes that
hold it. No word holds a zero byte; such a text is shown between double quotes with escapes. -/
def quote (t : Text) : Text :=
  if t.isEmpty then "''"
  else if t.contains 0 then t.quoted
  else if t.runes.any needsEscape then "$'" ++ t.runes.flatMap escaped ++ "'"
  else if !t.runes.any isSpecialRune && !isReserved t then t
  else if !t.contains 39 then "'" ++ t ++ "'"
  else "\"" ++ t.flatMap guarded ++ "\""

end Shell

end Runsheet
