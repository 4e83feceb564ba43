import Runsheet.Block
import Runsheet.Diagnostic
import Runsheet.Suggestion

/-!
Choices and input axes. Both are a name with a list of labels and a block of switches for each
label; they are kept in registries in the order of their declarations.
-/
namespace Runsheet

/-- The label that stands for every label of a choice, in any case. -/
def allLabels : Text := "all"

def isAllLabels (label : Text) : Bool := label.equalsIgnoringCase allLabels

inductive AxisKind
  | choice
  | input
  deriving DecidableEq, Repr

def AxisKind.name : AxisKind → String
  | choice => "choice"
  | input => "input"

/-- How the labels of a choice came to be selected. -/
inductive SelectionState
  | none
  | suppliedByOption
  | setInScript
  deriving DecidableEq, Repr

def SelectionState.name : SelectionState → String
  | none => "none"
  | suppliedByOption => "supplied by option"
  | setInScript => "set in script"

/-- A choice or an input axis. The labels are kept in the order of their declarations, and apart from
them the block of each. An empty default is none. -/
structure Axis where
  kind : AxisKind
  name : Text
  declared : Pos
  labels : List Text := []
  blocks : Shelf := {}
  default : Text := []
  state : SelectionState := .none
  selected : List Text := []
  usedInCase : Bool := false
  deriving DecidableEq, Repr

namespace Axis

def block? (a : Axis) (label : Text) : Option Block := a.blocks.get? label

def hasLabel (a : Axis) (label : Text) : Bool := (a.block? label).isSome

def defaultLabel? (a : Axis) : Option Text := if a.default.isEmpty then none else some a.default

/-- The labels that have blocks, with their blocks. -/
def branches (a : Axis) : List Branch := a.blocks.branches

def addBranch (a : Axis) (label : Text) : Axis :=
  { a with
    labels := a.labels ++ [label]
    blocks := a.blocks.put label { name := a.name ++ ":" ++ label } }

/-- The axis with the switches of a block added to the blocks of some labels, one after the other, up
to the first label that has no block. -/
def enrich (a : Axis) (labels : List Text) (block : Block) : Axis :=
  { a with blocks := (a.blocks.absorb block labels).1 }

end Axis

/-- Why an operation on the engine's data fails: the script is at fault, or its caller. -/
inductive Failure
  | diagnostic (d : Diagnostic)
  | violation (v : Violation)
  deriving DecidableEq, Repr

/-- What the user is told. -/
def Failure.toDiagnostic : Failure → Diagnostic
  | diagnostic d => d
  | violation v => .ofViolation v

/-- The declared axes of one sort, in order. -/
structure Registry where
  kind : AxisKind
  axes : List Axis := []
  deriving DecidableEq, Repr

namespace Registry

def names (r : Registry) : List Text := r.axes.map Axis.name

def get? (r : Registry) (name : Text) : Option Axis := r.axes.find? (·.name == name)

def modify (r : Registry) (name : Text) (f : Axis → Axis) : Registry :=
  { r with axes := r.axes.map fun a => if a.name == name then f a else a }

def called (r : Registry) (name : Text) : Text := r.kind.name ++ " '" ++ name ++ "'"

/-- Declares an axis. A name is declared only once. -/
def declare (r : Registry) (name : Text) (pos : Pos) : Registry × Option Failure :=
  match r.get? name with
  | some previous => (r, some <| .diagnostic
      { kind := .duplicateDeclaration, pos
        text := r.called name ++ " is already declared at " ++ previous.declared.text })
  | none => ({ r with axes := r.axes ++ [{ kind := r.kind, name, declared := pos }] }, none)

def undeclared (r : Registry) : Violation := .missing ("declared " ++ r.kind.name)

/-- Adds a label to an axis. A label occurs once, and none stands for all labels. -/
def addLabel (r : Registry) (name label : Text) (pos : Pos) : Registry × Option Failure :=
  match r.get? name with
  | none => (r, some (.violation r.undeclared))
  | some axis =>
    if isAllLabels label then (r, some <| .diagnostic
      { kind := .reservedLabel, pos
        text := "label '" ++ label ++ "' is reserved and cannot be used in " ++ r.called name })
    else if axis.hasLabel label then (r, some <| .diagnostic
      { kind := .duplicateLabel, pos
        text := "label '" ++ label ++ "' occurs more than once in " ++ r.called name })
    else (r.modify name (·.addBranch label), none)

def setDefault (r : Registry) (name label : Text) (pos : Pos) : Registry × Option Failure :=
  match r.get? name with
  | none => (r, some (.violation r.undeclared))
  | some axis =>
    if !axis.hasLabel label then (r, some <| .diagnostic
      { kind := .labelNotInChoice, pos
        text := "default label '" ++ label ++ "' is not a label of " ++ r.called name
        suggestion := Suggestion.closest label axis.labels })
    else (r.modify name ({ · with default := label }), none)

end Registry

end Runsheet
