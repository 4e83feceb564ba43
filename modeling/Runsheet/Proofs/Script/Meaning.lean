import Runsheet.Engine
import Runsheet.Proofs.Script.Tree

/-! What a script means, read off its tree: the options of the main block, what every alternative
adds to the blocks of its labels, and the commands these come to. No state is kept; an alternative
counts when it ends, so inner ones come before the one they stand in. -/
namespace Runsheet

/-- What an alternative adds to the block of each of its labels. -/
structure Contribution where
  subject : Text
  labels : List Text
  switches : List Switch
  deriving DecidableEq, Repr

/-- The options that stand directly in a body, not within a case statement of it. -/
def Body.switches : Body → List Switch
  | .nil => []
  | .option name value rest => .ofOption name value :: rest.switches
  | .case _ _ rest => rest.switches

mutual

/-- The alternatives within a body, in the order in which they end. -/
def Body.contributions : Body → List Contribution
  | .nil => []
  | .option _ _ rest => rest.contributions
  | .case subject alternatives rest => alternatives.contributions subject ++ rest.contributions

/-- The alternatives of a case statement and those within them, in the order in which they end. -/
def Alternatives.contributions (subject : Text) : Alternatives → List Contribution
  | .last label labels body => body.contributions ++ [⟨subject, label :: labels, body.switches⟩]
  | .cons label labels body rest =>
    body.contributions ++ ⟨subject, label :: labels, body.switches⟩ :: rest.contributions subject

end

/-- The concatenation of what the alternatives over an axis that name a label add to its block. -/
def blockOf (contributions : List Contribution) (axis label : Text) : List Switch :=
  contributions.flatMap fun c => if c.subject = axis ∧ label ∈ c.labels then c.switches else []

/-- The words that a label stands for are gathered in the order of the contributions, whatever
stands between them. -/
theorem blockOf_append (first second : List Contribution) (axis label : Text) :
    blockOf (first ++ second) axis label =
      blockOf first axis label ++ blockOf second axis label :=
  List.flatMap_append

/-- An axis as it is declared. An empty default is none. -/
structure AxisDeclaration where
  name : Text
  labels : List Text
  default : Text
  deriving DecidableEq, Repr

def Switch.allWords (switches : List Switch) : List Text := switches.flatMap Switch.words

namespace Script

/-- The tools that are named, in order. -/
def tools (script : List Statement) : List Text := script.filterMap fun
  | .tool name => some name
  | _ => none

/-- The sources that are named, in order and with repetitions. -/
def sources (script : List Statement) : List Text := script.filterMap fun
  | .source name => some name
  | _ => none

def main (script : List Statement) : List Switch := script.filterMap fun
  | .option name value => some (.ofOption name value)
  | _ => none

/-- What the alternatives of all case statements add, in the order in which they end. -/
def contributions (script : List Statement) : List Contribution := script.flatMap fun
  | .case subject alternatives => alternatives.contributions subject
  | _ => []

/-- The declared axes of a sort, in order. -/
def axes (kind : AxisKind) (script : List Statement) : List AxisDeclaration := script.filterMap fun
  | .axis kind' name label labels default =>
    if kind' = kind then some ⟨name, label :: labels, default.getD []⟩ else none
  | _ => none

section append

variable (first second : List Statement)

theorem tools_append : tools (first ++ second) = tools first ++ tools second :=
  List.filterMap_append

theorem sources_append : sources (first ++ second) = sources first ++ sources second :=
  List.filterMap_append

theorem main_append : main (first ++ second) = main first ++ main second :=
  List.filterMap_append

/-- Case statements contribute to labels in the order in which they stand in the script. -/
theorem contributions_append :
    contributions (first ++ second) = contributions first ++ contributions second :=
  List.flatMap_append

/-- The axes of a sort come in the order of their declarations. -/
theorem axes_append (kind : AxisKind) :
    axes kind (first ++ second) = axes kind first ++ axes kind second :=
  List.filterMap_append

end append

def block (script : List Statement) (axis label : Text) : List Switch :=
  blockOf (contributions script) axis label

/-- The sources of the commands: those that go with the script, else the script's own, else the
default of the only input axis. -/
def resolvedSources (config : Config) (script : List Statement) : Option (List Text) :=
  if config.inputs ≠ [] then some config.inputs
  else if sources script ≠ [] then some (sources script)
  else match axes .input script with
    | [axis] => if axis.default = [] then none else some [axis.default]
    | _ => none

/-- The words that every command over a source starts with: the main block, then the blocks that the
input axes have for the source. -/
def baseWords (script : List Statement) (source : Text) : List Text :=
  Switch.allWords (main script) ++ (axes .input script).flatMap fun axis =>
    if source ∈ axis.labels then Switch.allWords (block script axis.name source) else []

/-- The commands over one source: one for each selection, or a single one when there is none. -/
def commandsFor (script : List Statement) (tool : Text) (selections : List Selection)
    (source : Text) : List Command :=
  if selections = [] then [{ tool, input := source, args := some (baseWords script source) }]
  else selections.map fun s =>
    { tool, input := source, choice := s.choice, label := s.label
      args := some (baseWords script source ++ Switch.allWords (block script s.choice s.label)) }

/-- The commands of a script, source by source. -/
def commands (script : List Statement) (tool : Text) (sources : List Text)
    (selections : List Selection) : List Command :=
  sources.flatMap (commandsFor script tool selections)

end Script

end Runsheet
