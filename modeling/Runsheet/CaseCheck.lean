import Runsheet.Axis

/-!
The check that a case statement uses every label of its subject exactly once. The subject is handed
to every operation, since it may gain labels while the statement is open.
-/
namespace Runsheet

/-- An open case statement: its subject, the labels used so far, and the labels of the alternative
read last. -/
structure CaseCheck where
  kind : AxisKind
  subject : Text
  pos : Pos
  used : List Text := []
  current : List Text := []
  inAlternative : Bool := false
  closed : Bool := false
  deriving DecidableEq, Repr

namespace CaseCheck

/-- A case statement over a subject, at a place. -/
def start (subject : Axis) (pos : Pos) : CaseCheck :=
  { kind := subject.kind, subject := subject.name, pos }

/-- The labels used so far, in the order of their declarations. -/
def usedLabels (c : CaseCheck) (subject : Axis) : List Text :=
  subject.labels.filter fun l => c.used.contains l

/-- The labels not used so far, in the order of their declarations. -/
def unusedLabels (c : CaseCheck) (subject : Axis) : List Text :=
  subject.labels.filter fun l => !c.used.contains l

def called (c : CaseCheck) : Text := "case statement over '" ++ c.subject ++ "'"

def subjectCalled (c : CaseCheck) : Text := c.kind.name ++ " '" ++ c.subject ++ "'"

def beginAlternative (c : CaseCheck) : CaseCheck × Option Failure :=
  if c.closed then (c, some (.violation ⟨.precondition, c.called ++ " is closed"⟩))
  else if c.inAlternative then
    (c, some (.violation ⟨.precondition, "alternative already open in " ++ c.called⟩))
  else ({ c with current := [], inAlternative := true }, none)

def noAlternative (c : CaseCheck) : Violation :=
  ⟨.precondition, "no open alternative in " ++ c.called⟩

/-- Adds a label to the open alternative. It has to be a label of the subject, not used before. -/
def addLabel (c : CaseCheck) (subject : Axis) (label : Text) (pos : Pos) :
    CaseCheck × Option Failure :=
  if !c.inAlternative then (c, some (.violation c.noAlternative))
  else if !subject.hasLabel label then (c, some <| .diagnostic
    { kind := .unknownLabel, pos
      text := "label '" ++ label ++ "' is not a label of " ++ c.subjectCalled
      suggestion := Suggestion.closest label subject.labels })
  else if c.used.contains label then (c, some <| .diagnostic
    { kind := .duplicateLabelInCase, pos
      text := "label '" ++ label ++ "' occurs more than once in case statement over " ++
        c.subjectCalled })
  else ({ c with used := c.used ++ [label], current := c.current ++ [label] }, none)

/-- Closes the open alternative, which has labels. -/
def endAlternative (c : CaseCheck) : CaseCheck × Option Failure :=
  if !c.inAlternative then (c, some (.violation c.noAlternative))
  else if c.current.isEmpty then
    (c, some (.violation ⟨.invariant, "alternative without labels in " ++ c.called⟩))
  else ({ c with inAlternative := false }, none)

/-- Some labels were never used. -/
def incomplete (c : CaseCheck) (unused : List Text) (pos : Pos) : Diagnostic :=
  { kind := .incompleteCase, pos
    text := "case statement over " ++ c.subjectCalled ++ " (line " ++ Text.decimalInt c.pos.line ++
      ") does not use label(s): " ++ Text.join ", " unused
    related := unused }

/-- Closes the statement. It is closed even when labels are missing, which is an error. -/
def close (c : CaseCheck) (subject : Axis) (pos : Pos) : CaseCheck × Option Failure :=
  if c.inAlternative then
    (c, some (.violation ⟨.precondition, c.called ++ " closed inside an alternative"⟩))
  else if c.closed then (c, some (.violation ⟨.precondition, c.called ++ " closed twice"⟩))
  else
    match c.unusedLabels subject with
    | [] => ({ c with closed := true }, none)
    | unused => ({ c with closed := true }, some (.diagnostic (c.incomplete unused pos)))

end CaseCheck

end Runsheet
