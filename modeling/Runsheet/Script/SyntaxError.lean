import Runsheet.Diagnostic
import Runsheet.Log
import Runsheet.Token

/-!
Syntax errors and how they are shown: on one line, or with the source line they point into.
-/
namespace Runsheet

/-- Why a script could not be read, where, and how to mend it. -/
structure SyntaxError where
  filename : Text := []
  pos : Pos
  offset : Int := 0
  text : Text
  context : Text := []
  expected : List TokenKind := []
  got : TokenKind
  gotText : Text := []
  suggestion : Text := []
  sample : Text := []
  deriving DecidableEq, Repr

namespace SyntaxError

def expectedText (e : SyntaxError) : Text :=
  Text.join " or " (e.expected.map fun k => Text.ofString k.describe)

/-- What was found, in words; the bytes of a token other than a string are shown. -/
def gotDescription (e : SyntaxError) : Text :=
  if e.gotText.isEmpty ∨ e.got = .string then e.got.describe else "'" ++ e.gotText ++ "'"

/-- The error on one line: place, text, context and what was expected. -/
def message (e : SyntaxError) : Text :=
  Text.onlyIf (!e.filename.isEmpty) (e.filename ++ ":") ++
    Text.decimalInt e.pos.line ++ ":" ++ Text.decimalInt e.pos.column ++ ": " ++ e.text ++
    Text.onlyIf (!e.context.isEmpty) (" in " ++ e.context) ++
    Text.onlyIf (!e.expected.isEmpty)
      (" (expected " ++ e.expectedText ++ ", got " ++ e.gotDescription ++ ")")

def record (e : SyntaxError) : LogRecord :=
  { message := "syntax error"
    fields := [("message", .text e.text), ("context", .text e.context),
      ("line", .number e.pos.line), ("column", .number e.pos.column)] }

end SyntaxError

/-- The mark under a column of a line: blanks, a caret and a label. A column past the byte after the
line has none. -/
def caret (lineLength : Nat) (column : Int) (label : Text) : Text :=
  Text.onlyIf (0 < column ∧ column ≤ lineLength + 1)
    (Text.fill (column.toNat - 1) 32 ++ "^" ++ Text.onlyIf (!label.isEmpty) (" " ++ label))

/-- The source line at a place with a caret under the column, nothing when the source has no such
line. Carriage returns at the end of the line are not shown. -/
def excerpt (source : Text) (line column : Int) (label : Text) : Text :=
  if source.isEmpty ∨ line ≤ 0 then []
  else match (source.splitAt 10)[line.toNat - 1]? with
    | none => []
    | some content =>
      let shown := content.dropEnd 13
      "  --> " ++ Text.decimalInt line ++ ":" ++ Text.decimalInt column ++ "\n   |\n" ++
        Text.padLeft 2 32 (Text.decimalInt line) ++ " | " ++ shown ++ "\n   | " ++
        caret shown.length column label ++ "\n"

/-- The error with the source line it points into and ways to mend it. A compact form leaves the
sample out. -/
def SyntaxError.format (e : SyntaxError) (source : Text) (compact : Bool) : Text :=
  e.message ++ "\n" ++
    excerpt source e.pos.line e.pos.column
      (Text.onlyIf (!e.expected.isEmpty) ("expected " ++ e.expectedText)) ++
    Text.onlyIf (!e.suggestion.isEmpty) ("   = help: " ++ e.suggestion ++ "\n") ++
    Text.onlyIf (!e.sample.isEmpty && !compact) ("   = example: " ++ e.sample ++ "\n")

end Runsheet
