import Runsheet.Proofs.Selection.Requests
import Runsheet.Script.Event

/-! What the events that an engine has taken tell by themselves: the labels of each choice, what is
asked for and how, and which case statements are open and which are closed. -/
namespace Runsheet

namespace History

/-- The labels of a choice, in the order of their declarations. -/
def labels (choice : Text) (events : List Event) : List Text := events.filterMap fun
  | .addLabel .choice name label => if name = choice then some label else none
  | _ => none

/-- What an event asks for after others. A select statement stands for labels that its choice has at
that moment, and for nothing when a directive names its choice. -/
def request (directives : List Directive) (before : List Event) : Event → List Selection
  | .select choice label =>
    if directives.any (·.choice == choice) then []
    else Selection.expansion (labels choice before) choice label
  | _ => []

/-- What events ask for after others. -/
def requestsAfter (directives : List Directive) (before : List Event) :
    List Event → List Selection
  | [] => []
  | e :: events =>
    request directives before e ++ requestsAfter directives (before ++ [e]) events

/-- What the select statements ask for, in the order of the script. -/
def requests (directives : List Directive) (events : List Event) : List Selection :=
  requestsAfter directives [] events

/-- Everything that is asked for: by the select statements, then by the directives. -/
def asked (directives : List Directive) (events : List Event) : List Selection :=
  requests directives events ++ directives.flatMap fun d =>
    Selection.expansion (labels d.choice events) d.choice d.label

def selects (choice : Text) (events : List Event) : Bool := events.any fun
  | .select name _ => name == choice
  | _ => false

/-- How a choice comes by its selections before the directives are applied. -/
def scriptState (directives : List Directive) (events : List Event) (choice : Text) :
    SelectionState :=
  if selects choice events && !directives.any (·.choice == choice) then .setInScript else .none

/-- How a choice comes by its selections. -/
def finalState (directives : List Directive) (events : List Event) (choice : Text) :
    SelectionState :=
  if directives.any (·.choice == choice) then .suppliedByOption
  else if selects choice events then .setInScript
  else .none

/-- The subjects of open case statements, innermost first, and of closed ones, after an event. -/
def caseStep : List Text × List Text → Event → List Text × List Text
  | (opened, closed), .beginCase subject => (subject :: opened, closed)
  | (subject :: opened, closed), .endCase => (opened, closed ++ [subject])
  | subjects, _ => subjects

/-- The subjects of open case statements, innermost first. -/
def openSubjects (events : List Event) : List Text := (events.foldl caseStep ([], [])).1

def closedSubjects (events : List Event) : List Text := (events.foldl caseStep ([], [])).2

/-- Whether an event gives no choice a label and selects nothing. -/
def isSilent : Event → Bool
  | .addLabel .choice .. | .select .. => false
  | _ => true

def boundsCase : Event → Bool
  | .beginCase _ | .endCase => true
  | _ => false

/-- Whether an event is silent, bounds no case statement and declares nothing. -/
def isIdle : Event → Bool
  | .declare .. => false
  | e => isSilent e && !boundsCase e

section append

variable (directives : List Directive) (events : List Event) (e : Event)

/-- What events ask for may depend on the events before them, as labels can be declared in between;
so the second part starts from the first. -/
theorem requestsAfter_append (before more : List Event) :
    requestsAfter directives before (events ++ more) =
      requestsAfter directives before events ++
        requestsAfter directives (before ++ events) more := by
  induction events generalizing before with
  | nil => simp [requestsAfter]
  | cons e events ih => simp [requestsAfter, ih]

/-- The last event asks for what it stands for after all the others. -/
theorem requests_append :
    requests directives (events ++ [e]) =
      requests directives events ++ request directives events e := by
  simp [requests, requestsAfter_append, requestsAfter]

/-- A label declaration counts for itself, whatever came before it. -/
theorem labels_append (choice : Text) :
    labels choice (events ++ [e]) = labels choice events ++ labels choice [e] :=
  List.filterMap_append

theorem selects_append (choice : Text) :
    selects choice (events ++ [e]) = (selects choice events || selects choice [e]) :=
  List.any_append

/-- Open and closed case statements are followed event by event, the last event acting on what the
others left. -/
theorem caseStep_append :
    (events ++ [e]).foldl caseStep ([], []) =
      caseStep (openSubjects events, closedSubjects events) e := by
  rw [List.foldl_append]
  rfl

end append

section silent

variable {e : Event} (h : isSilent e = true) (events : List Event)
include h

/-- An event that is silent about choices adds no label, and so the requests for all labels mean the
same after it. -/
theorem labels_silent (choice : Text) : labels choice (events ++ [e]) = labels choice events := by
  have hNone : labels choice [e] = [] := by
    cases e with
    | addLabel kind name label =>
        cases kind with
        | choice => cases h
        | input => rfl
    | select name label => cases h
    | _ => rfl
  rw [labels_append, hNone, List.append_nil]

/-- Such an event asks for nothing either. -/
theorem requests_silent (directives : List Directive) :
    requests directives (events ++ [e]) = requests directives events := by
  have hNone : request directives events e = [] := by
    cases e with
    | select choice label => cases h
    | _ => rfl
  rw [requests_append, hNone, List.append_nil]

theorem selects_silent (choice : Text) : selects choice (events ++ [e]) = selects choice events := by
  have hNone : selects choice [e] = false := by
    cases e with
    | select choice label => cases h
    | _ => rfl
  rw [selects_append, hNone, Bool.or_false]

end silent

theorem caseStep_eq_self {e : Event} (h : boundsCase e = false) (subjects : List Text × List Text) :
    caseStep subjects e = subjects := by
  obtain ⟨opened, closed⟩ := subjects
  cases e with
  | beginCase subject => cases h
  | endCase => cases h
  | _ => cases opened <;> rfl

/-- Events that neither open nor close a case statement leave both lists of subjects alone. -/
theorem subjects_silent {e : Event} (h : boundsCase e = false) (events : List Event) :
    openSubjects (events ++ [e]) = openSubjects events ∧
      closedSubjects (events ++ [e]) = closedSubjects events := by
  rw [openSubjects, closedSubjects, caseStep_append, caseStep_eq_self h]
  exact ⟨rfl, rfl⟩

end History

end Runsheet
