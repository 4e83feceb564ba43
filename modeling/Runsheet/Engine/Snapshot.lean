import Runsheet.Engine
import Runsheet.Yaml.Writer

/-!
A view of the engine's state for display, and the same view as a document.
-/
namespace Runsheet

structure Snapshot where
  tool : Text
  inputs : List Text
  mainSwitches : List Switch
  scopes : List Text
  choices : List Axis
  inputAxes : List Axis
  selected : List Selection
  warnings : List Text
  deriving Repr

def State.snapshot (s : State) : Snapshot :=
  { tool := s.tool
    inputs := s.sources
    mainSwitches := (s.scopes.main.toOption.map Block.switches).getD []
    scopes := s.scopes.names
    choices := s.choices.axes
    inputAxes := s.inputs.axes
    selected := s.selections
    warnings := s.warnings.map Diagnostic.message }

namespace Snapshot

open Yaml (Content)

def listEntry (name : String) (items : List Content) : List (String × Content) :=
  if items.isEmpty then [] else [(name, .sequence items)]

def textEntry (name : String) (t : Text) : List (String × Content) :=
  if t.isEmpty then [] else [(name, .text t)]

def switchContent (s : Switch) : Content :=
  .mapping ([("name", .text s.name)] ++ textEntry "value" s.value ++
    if s.hasValue then [("hasValue", .boolean true)] else [])

/-- A label with its switches in the document. -/
def branchContent (b : Branch) : Content :=
  .mapping (("label", .text b.label) :: listEntry "options" (b.block.switches.map switchContent))

def axisContent (a : Axis) : Content :=
  .mapping ([("name", .text a.name)] ++ textEntry "default" a.default ++
    [("state", .text a.state.name), ("usedInCase", .boolean a.usedInCase),
      ("labels", .sequence (a.branches.map branchContent))])

def selectionContent (s : Selection) : Content :=
  .mapping [("choice", .text s.choice), ("label", .text s.label)]

/-- The view as a document. -/
def yaml (s : Snapshot) : Text :=
  Yaml.document
    ([("tool", Content.text s.tool)] ++ listEntry "inputs" (s.inputs.map .text) ++
      listEntry "mainOptions" (s.mainSwitches.map switchContent) ++
      [("scopes", .sequence (s.scopes.map .text))] ++
      listEntry "choices" (s.choices.map axisContent) ++
      listEntry "inputAxes" (s.inputAxes.map axisContent) ++
      listEntry "selected" (s.selected.map selectionContent) ++
      listEntry "warnings" (s.warnings.map .text))

end Snapshot

end Runsheet
