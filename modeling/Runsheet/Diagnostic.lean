import Runsheet.Contract

/-!
What the engine tells about a script: a kind, a message, the place it is about, the name that was
probably meant and the names that belong to the matter.
-/
namespace Runsheet

/-- A line and a column in a script, both from one. A line of zero or less is no place at all. -/
structure Pos where
  line : Int
  column : Int
  deriving DecidableEq, Repr

namespace Pos

/-- No place, as for a directive of the command line. -/
def none : Pos := ⟨0, 0⟩

/-- Whether the position points into a script. -/
def isValid (p : Pos) : Bool := 0 < p.line

/-- The position as `line:column`, a dash when it is no place. -/
def text (p : Pos) : Text :=
  if p.isValid then Text.decimalInt p.line ++ ":" ++ Text.decimalInt p.column else "-"

end Pos

/-- The kinds of diagnostics. A code from outside the list is kept as it is. -/
inductive DiagnosticKind
  | internalError
  | syntaxError
  | duplicateDeclaration
  | duplicateLabel
  | reservedLabel
  | unknownName
  | unknownLabel
  | labelNotInChoice
  | unknownChoiceInSelect
  | unknownLabelInSelect
  | duplicateLabelInCase
  | incompleteCase
  | ambiguousChoice
  | missingDefaultLabel
  | missingTool
  | noInputSource
  | warning
  | unlisted (code : Int)
  deriving DecidableEq, Repr

namespace DiagnosticKind

/-- The listed kinds, each at its code. -/
def listed : List DiagnosticKind :=
  [internalError, syntaxError, duplicateDeclaration, duplicateLabel, reservedLabel, unknownName,
    unknownLabel, labelNotInChoice, unknownChoiceInSelect, unknownLabelInSelect,
    duplicateLabelInCase, incompleteCase, ambiguousChoice, missingDefaultLabel, missingTool,
    noInputSource, warning]

def ofCode (code : Int) : DiagnosticKind :=
  if code < 0 then unlisted code else listed[code.toNat]?.getD (unlisted code)

def name : DiagnosticKind → Text
  | internalError => "internal error"
  | syntaxError => "syntax error"
  | duplicateDeclaration => "duplicate declaration"
  | duplicateLabel => "duplicate label"
  | reservedLabel => "reserved label"
  | unknownName => "unknown name"
  | unknownLabel => "unknown label"
  | labelNotInChoice => "label not in choice"
  | unknownChoiceInSelect => "unknown choice in select"
  | unknownLabelInSelect => "unknown label in select"
  | duplicateLabelInCase => "duplicate label in case statement"
  | incompleteCase => "incomplete case statement"
  | ambiguousChoice => "ambiguous choice selection"
  | missingDefaultLabel => "missing default label"
  | missingTool => "missing tool"
  | noInputSource => "no input source"
  | warning => "warning"
  | unlisted code => "ErrorKind(" ++ Text.decimalInt code ++ ")"

/-- The kind under which callers find a diagnostic: an unlisted one counts as internal. -/
def category : DiagnosticKind → DiagnosticKind
  | unlisted _ => internalError
  | kind => kind

end DiagnosticKind

inductive Severity
  | error
  | warning
  deriving DecidableEq, Repr

def Severity.name : Severity → String
  | error => "error"
  | warning => "warning"

/-- An error or a warning about a script or the directives that go with it. -/
structure Diagnostic where
  kind : DiagnosticKind
  severity : Severity := .error
  text : Text
  pos : Pos := .none
  suggestion : Text := []
  related : List Text := []
  deriving DecidableEq, Repr

namespace Diagnostic

/-- The diagnostic on one line: its place, its text and the suggestion. -/
def message (d : Diagnostic) : Text :=
  Text.onlyIf d.pos.isValid (d.pos.text ++ ": ") ++ d.text ++
    Text.onlyIf (!d.suggestion.isEmpty) (" (did you mean '" ++ d.suggestion ++ "'?)")

def warn (pos : Pos) (text : Text) : Diagnostic := { kind := .warning, severity := .warning, text, pos }

def ofViolation (v : Violation) : Diagnostic := { kind := .internalError, text := v.message }

end Diagnostic

end Runsheet
