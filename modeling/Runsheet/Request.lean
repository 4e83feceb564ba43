import Runsheet.Complaint
import Runsheet.Selection
import Runsheet.Text.Lowercase

/-!
What the user asks for on the command line and in the settings: which labels to select and what to
trace.
-/
namespace Runsheet

/-- Reads directives in order, up to the first that is malformed. -/
def Directive.parseAll (complain : Text → Complaint) : List Text → Except Complaint (List Directive)
  | [] => .ok []
  | t :: rest =>
    match Directive.parse t with
    | .error message => .error (complain message)
    | .ok d => (Directive.parseAll complain rest).map (d :: ·)

def malformedFlag (message : Text) : Complaint :=
  { kind := .arguments, text := message
    hint := "write --select CHOICE:LABEL, e.g. --select layout:part" }

def malformedSetting (message : Text) : Complaint := { kind := .settings, text := message }

/-- The directives in force: those of the settings whose choice no flag names, then the flags. -/
def Directive.combine (settings flags : List Text) : Except Complaint (List Directive) :=
  match Directive.parseAll malformedFlag flags with
  | .error c => .error c
  | .ok fromFlags =>
    match Directive.parseAll malformedSetting settings with
    | .error c => .error c
    | .ok fromSettings =>
      .ok (fromSettings.filter (fun d => !fromFlags.any (·.choice == d.choice)) ++ fromFlags)

def unknownConcern (name : Text) : Complaint :=
  { kind := .arguments, text := "unknown trace '" ++ name ++ "'"
    hint := "use one or more of: " ++
      Text.join ", " (Concern.all.map fun c => Text.ofString c.name) }

/-- The trace of some names, in any case and with blanks around them. Empty names do not count. -/
def Trace.ofNames : List Text → Except Complaint Trace
  | [] => .ok {}
  | name :: rest =>
    let plain := name.trim.lower
    if plain.isEmpty then Trace.ofNames rest
    else
      match Concern.all.find? fun c => Text.ofString c.name == plain with
      | none => .error (unknownConcern plain)
      | some c => (Trace.ofNames rest).map fun t => ⟨c :: t.concerns⟩

end Runsheet
