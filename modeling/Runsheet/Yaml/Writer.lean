import Runsheet.Text.Base64
import Runsheet.Text.Utf8
import Runsheet.Yaml.Resolve

/-!
Writing documents in block style. A scalar is written plain where it reads back as the same text,
and otherwise in the first of the quoted and literal styles that can hold it.
-/
namespace Runsheet

namespace Yaml

/-- A document to be written: texts, truth values, and blocks of named values and items. -/
inductive Content
  | text (t : Text)
  | boolean (b : Bool)
  | mapping (entries : List (String × Content))
  | sequence (items : List Content)

def isShown (c : Nat) : Bool :=
  c = 10 || (0x20 ≤ c && c ≤ 0x7e) || (0xa0 ≤ c && c ≤ 0xfffd && c ≠ 0xfeff)

def isBreak (c : Nat) : Bool := c = 10 || c = 13 || c = 0x85 || c = 0x2028 || c = 0x2029

def isBlank (c : Nat) : Bool := c = 32 || c = 9

/-- Whether some code point is followed by another that fits it. -/
def anyPair (p : Nat → Nat → Bool) : List Nat → Bool
  | a :: b :: rest => p a b || anyPair p (b :: rest)
  | _ => false

/-- Whether a scalar has code points that only escapes can show; a tab is not one of them. -/
def hasSpecial (cs : List Nat) : Bool := cs.any fun c => c ≠ 9 && !isShown c

def hasSpaceBreak (cs : List Nat) : Bool := anyPair (fun a b => a = 32 && isBreak b) cs

def hasBreakSpace (cs : List Nat) : Bool := anyPair (fun a b => isBreak a && b = 32) cs

/-- Whether a scalar starts with a mark that means something else: an indicator, a document mark, or
one of `?`, `:` and `-` before a blank or the end. -/
def startsLikeMarkup (cs : List Nat) : Bool :=
  cs.take 3 = [45, 45, 45] || cs.take 3 = [46, 46, 46] ||
    match cs with
    | [] => false
    | c :: rest =>
      [35, 44, 91, 93, 123, 125, 38, 42, 33, 124, 62, 39, 34, 37, 64, 96].contains c ||
        ([63, 58, 45].contains c && rest.head?.all isBlank)

/-- Whether a scalar has a colon before a blank or the end, or a `#` after a blank. -/
def hasMarkupInside (cs : List Nat) : Bool :=
  anyPair (fun a b => a = 58 && isBlank b) cs || cs.getLast? = some 58 ||
    anyPair (fun a b => (isBlank a || isBreak a || a = 0) && b = 35) cs

/-- Whether a scalar may be written without quotes. -/
def plainAllowed (cs : List Nat) : Bool :=
  !(cs.head? = some 32 || cs.getLast? = some 32 || cs.any isBreak || cs.contains 9 ||
    hasSpecial cs || startsLikeMarkup cs || hasMarkupInside cs)

def singleQuotedAllowed (cs : List Nat) : Bool :=
  !(hasSpaceBreak cs || hasBreakSpace cs || cs.contains 9 || hasSpecial cs)

def literalAllowed (cs : List Nat) : Bool :=
  !cs.isEmpty && !(cs.getLast? = some 32 || hasSpaceBreak cs || hasSpecial cs)

/-- Words that older readers take for truth values. -/
def isOldBoolean (t : Text) : Bool :=
  isAmong ["y", "Y", "yes", "Yes", "YES", "on", "On", "ON", "n", "N", "no", "No", "NO", "off", "Off",
    "OFF"] t

/-- The parts after the first of a number in base sixty, up to a fraction. -/
def isSexagesimalTail (parts : List Text) : Bool :=
  !parts.isEmpty && parts.all fun part =>
    match part with
    | [a] => Decimal.isDigit a
    | [a, b] => 48 ≤ a && a ≤ 53 && Decimal.isDigit b
    | _ => false

/-- Numbers in base sixty, which older readers know. -/
def isSexagesimal (t : Text) : Bool :=
  let isDigitOrBar (b : UInt8) : Bool := Decimal.isDigit b || b == 95
  let (_, t) := Decimal.sign t
  let (t, fraction) := match t.cut 46 with
    | some (t, fraction) => (t, fraction)
    | none => (t, [])
  match t.splitAt 58 with
  | first :: rest =>
    first.all isDigitOrBar && first.head?.any Decimal.isDigit && fraction.all isDigitOrBar &&
      isSexagesimalTail rest
  | [] => false

def readsAsText (t : Text) : Bool := resolve t = .text t && !isSexagesimal t && !isOldBoolean t

def codeBytes (c : Nat) : Text := String.utf8EncodeChar (Char.ofNat c)

/-- One hexadecimal digit, in upper case. -/
def upperHexDigit (n : Nat) : UInt8 := if n < 10 then (n + 48).toUInt8 else (n + 55).toUInt8

/-- So many hexadecimal digits, in upper case. -/
def upperHex : (width : Nat) → Nat → Text
  | 0, _ => []
  | w + 1, n => upperHex w (n / 16) ++ [upperHexDigit (n % 16)]

def escapeLetter? : Nat → Option UInt8
  | 0x00 => some 48
  | 0x07 => some 97
  | 0x08 => some 98
  | 0x09 => some 116
  | 0x0a => some 110
  | 0x0b => some 118
  | 0x0c => some 102
  | 0x0d => some 114
  | 0x1b => some 101
  | 0x22 => some 34
  | 0x5c => some 92
  | 0x85 => some 78
  | 0xa0 => some 95
  | 0x2028 => some 76
  | 0x2029 => some 80
  | _ => none

def doubleQuotedCode (c : Nat) : Text :=
  if isShown c && !isBreak c && c ≠ 34 && c ≠ 92 then codeBytes c
  else match escapeLetter? c with
    | some letter => [92, letter]
    | none =>
      if c ≤ 0xff then "\\x" ++ upperHex 2 c
      else if c ≤ 0xffff then "\\u" ++ upperHex 4 c
      else "\\U" ++ upperHex 8 c

def doubleQuoted (cs : List Nat) : Text := "\"" ++ cs.flatMap doubleQuotedCode ++ "\""

/-- Code points between single quotes; the first one after a line break is indented. -/
def singleQuotedCodes (indent : Nat) : (afterBreak : Bool) → List Nat → Text
  | _, [] => []
  | afterBreak, c :: rest =>
    if isBreak c then codeBytes c ++ singleQuotedCodes indent true rest
    else Text.onlyIf (afterBreak && c ≠ 32) (Text.fill indent 32) ++
      (if c = 39 then "''" else codeBytes c : Text) ++
      singleQuotedCodes indent (afterBreak && c = 32) rest

def singleQuoted (indent : Nat) (cs : List Nat) : Text :=
  "'" ++ singleQuotedCodes indent false cs ++ "'"

/-- The marks after `|`: the indentation where the text starts with a space or a line break, and what
becomes of the line breaks at the end. -/
def literalHints (cs : List Nat) : Text :=
  Text.onlyIf (cs.head?.any fun c => c = 32 || isBreak c) "2" ++
    match cs.reverse with
    | [] => "-"
    | [c] => if isBreak c then "+" else "-"
    | c :: d :: _ => if !isBreak c then "-" else if isBreak d then "+" else []

/-- The lines of a literal block. A line break at the very start is the one that ends the header. -/
def literalCodes (indent : Nat) : (atLineStart : Bool) → List Nat → Text
  | _, [] => []
  | atLineStart, c :: rest =>
    if isBreak c then codeBytes c ++ literalCodes indent true rest
    else Text.onlyIf atLineStart (Text.fill indent 32) ++ codeBytes c ++
      literalCodes indent false rest

def literalBlock (indent : Nat) (cs : List Nat) : Text :=
  "|" ++ literalHints cs ++
    (match cs with
    | c :: _ => Text.onlyIf (!isBreak c) "\n"
    | [] => []) ++ literalCodes indent true cs

def styled (indent : Nat) (cs : List Nat) (plain : Bool) : Text :=
  if cs.contains 10 then
    if literalAllowed cs then literalBlock indent cs else doubleQuoted cs
  else if !plain then doubleQuoted cs
  else if plainAllowed cs then cs.flatMap codeBytes
  else if singleQuotedAllowed cs then singleQuoted indent cs
  else doubleQuoted cs

/-- The lines of a text in base 64: one when it is short, else each of 70 characters with a newline
after it. The fuel bounds the number of lines. -/
def base64Lines : (fuel : Nat) → Text → Text
  | 0, t => t
  | fuel + 1, t => if t.isEmpty then [] else t.take 70 ++ "\n" ++ base64Lines fuel (t.drop 70)

/-- A text that is not UTF-8, as tagged base 64. -/
def binary (indent : Nat) (t : Text) : Text :=
  let encoded := Base64.encode t
  let lines := if encoded.length < 70 then encoded else base64Lines encoded.length encoded
  "!!binary " ++ styled indent (lines.map UInt8.toNat) true

/-- A text as a scalar, with the indentation of further lines. -/
def scalar (indent : Nat) (t : Text) : Text :=
  if t.isUtf8 then styled indent (t.runes.map Rune.code) (readsAsText t) else binary indent t

def endsLine (written : Text) : Text := if written.getLast? = some 10 then written else written ++ "\n"

mutual

/-- A value after its name and colon, or after the dash of an item, with the indentation of its
content. -/
def Content.render (indent : Nat) : Content → Text
  | .text t => " " ++ endsLine (scalar indent t)
  | .boolean b => if b then " true\n" else " false\n"
  | .mapping entries => "\n" ++ entriesText indent false entries
  | .sequence items => if items.isEmpty then " []\n" else "\n" ++ itemsText indent items

/-- The entries of a mapping, each on its own line; the first one may stand on a line begun
before. -/
def entriesText (indent : Nat) (continued : Bool) : List (String × Content) → Text
  | [] => []
  | (name, value) :: rest =>
    Text.onlyIf (!continued) (Text.fill indent 32) ++ Text.ofString name ++ ":" ++
      value.render (indent + 2) ++ entriesText indent false rest

def itemsText (indent : Nat) : List Content → Text
  | [] => []
  | item :: rest =>
    Text.fill indent 32 ++ "-" ++ itemText (indent + 2) item ++ itemsText indent rest

/-- One item after its dash. A mapping starts on the same line. -/
def itemText (indent : Nat) : Content → Text
  | .mapping entries => " " ++ entriesText indent true entries
  | .text t => " " ++ endsLine (scalar indent t)
  | .boolean b => if b then " true\n" else " false\n"
  | .sequence items => " " ++ itemsText indent items

end

/-- Whether the last scalar of a document keeps line breaks at its end, so that the end of the
document has to be marked. -/
def Content.lastText? : Content → Option Text
  | .text t => some t
  | .boolean _ => none
  | .mapping entries => lastOfEntries? entries
  | .sequence items => lastOfItems? items
where
  /-- The last scalar of a mapping. -/
  lastOfEntries? : List (String × Content) → Option Text
    | [] => none
    | [(_, value)] => value.lastText?
    | _ :: rest => lastOfEntries? rest
  /-- The last scalar of a sequence. -/
  lastOfItems? : List Content → Option Text
    | [] => none
    | [item] => item.lastText?
    | _ :: rest => lastOfItems? rest

/-- Whether a scalar is written as a literal block that keeps the line breaks at its end. -/
def keepsBreaks (t : Text) : Bool :=
  let cs := t.runes.map Rune.code
  t.isUtf8 && cs.contains 10 && literalAllowed cs && (literalHints cs).contains 43

def document (entries : List (String × Content)) : Text :=
  entriesText 0 false entries ++
    Text.onlyIf ((Content.mapping entries).lastText?.any keepsBreaks) "...\n"

end Yaml

end Runsheet
