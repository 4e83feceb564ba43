import Runsheet.Text

/-!
Problems with the way the program was called or with its surroundings, as they are told to the user.
-/
namespace Runsheet

inductive ComplaintKind
  | arguments
  | files
  | settings
  | execution
  deriving DecidableEq, Repr

def ComplaintKind.name : ComplaintKind → String
  | arguments => "args"
  | files => "io"
  | settings => "config"
  | execution => "execution"

/-- What is wrong, details about it and how to mend it. -/
structure Complaint where
  kind : ComplaintKind
  text : Text
  details : Text := []
  hint : Text := []
  deriving DecidableEq, Repr

def Complaint.message (c : Complaint) : Text :=
  c.text ++ Text.onlyIf (!c.details.isEmpty) ("\n" ++ c.details) ++
    Text.onlyIf (!c.hint.isEmpty) ("\n" ++ c.hint)

end Runsheet
