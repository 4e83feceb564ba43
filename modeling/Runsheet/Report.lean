import Runsheet.Complaint
import Runsheet.Script.SyntaxError
import Runsheet.Terminal.Style

/-!
Errors and warnings as they are shown to the user, with the script line that they point at.
-/
namespace Runsheet

open Terminal (render)

inductive Problem
  | script (e : SyntaxError)
  | engine (d : Diagnostic)
  | complaint (c : Complaint)
  | other (message : Text)
  deriving DecidableEq, Repr

def Problem.message : Problem → Text
  | script e => e.message
  | engine d => d.message
  | complaint c => c.message
  | other message => message

/-- How to show problems of a script: with color or not, and what the script is. -/
structure Reporter where
  color : Bool := false
  source : Text := []
  filename : Text := []
  deriving DecidableEq, Repr

namespace Reporter

def errorLead (r : Reporter) : Text := render r.color .error "Error: "

def syntaxError (r : Reporter) (e : SyntaxError) : Text := r.errorLead ++ e.format r.source false

/-- The place of a diagnostic, if it has one. -/
def place (r : Reporter) (d : Diagnostic) : Text :=
  Text.onlyIf d.pos.isValid
    (Text.onlyIf (!r.filename.isEmpty) (r.filename ++ ":") ++ d.pos.text ++ ": ")

def excerptOf (r : Reporter) (d : Diagnostic) : Text :=
  match excerpt r.source d.pos.line d.pos.column [] with
  | [] => []
  | lines => render r.color .dim lines.dropLast ++ "\n"

/-- What might help against a problem. -/
def hint (r : Reporter) (what : Text) : Text := render r.color .hint "Hint:" ++ " " ++ what ++ "\n"

def diagnostic (r : Reporter) (d : Diagnostic) : Text :=
  (match d.severity with
    | .warning => render r.color .warning "Warning: "
    | .error => r.errorLead) ++
    r.place d ++ d.text ++ "\n" ++ r.excerptOf d ++
    Text.onlyIf (!d.suggestion.isEmpty) (r.hint ("did you mean '" ++ d.suggestion ++ "'?")) ++
    Text.onlyIf (!d.related.isEmpty && d.kind == .incompleteCase)
      (r.hint ("add an alternative for " ++ Text.join ", " d.related))

def complaint (r : Reporter) (c : Complaint) : Text :=
  r.errorLead ++ c.text ++ "\n" ++
    Text.onlyIf (!c.details.isEmpty) ("\n" ++ c.details ++ "\n") ++
    Text.onlyIf (!c.hint.isEmpty) (render r.color .hint "Hint: " ++ c.hint ++ "\n")

def problem (r : Reporter) : Problem → Text
  | .script e => r.syntaxError e
  | .engine d => r.diagnostic d
  | .complaint c => r.complaint c
  | .other message => r.errorLead ++ message ++ "\n"

def warnings (r : Reporter) (ws : List Diagnostic) : Text := ws.flatMap r.diagnostic

end Reporter

end Runsheet
