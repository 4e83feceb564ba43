import Runsheet.Axis
import Runsheet.Plan
import Runsheet.Selection

/-!
From sources and selections to commands. Every source, in order, meets every selection, in order;
without selections each source has one command.
-/
namespace Runsheet

/-- What a plan is made of. -/
structure Recipe where
  tool : Text
  sources : List Text
  main : Option Block
  inputs : List Axis
  choices : Registry
  selections : List Selection
  deriving Repr

namespace Recipe

/-- The words that every command over a source starts with: those of the main block, then those of
each input axis that names the source. -/
def baseWords (r : Recipe) (main : Block) (source : Text) : List Text :=
  main.words ++ r.inputs.flatMap fun axis => ((axis.block? source).map Block.words).getD []

def blockOf? (r : Recipe) (s : Selection) : Option Block :=
  (r.choices.get? s.choice).bind (·.block? s.label)

/-- The command over a source and a selection, from the words that all commands over the source start
with. It cannot be made when the selected label has no block. -/
def commandOf (r : Recipe) (source : Text) (base : List Text) (s : Selection) :
    Except Violation Command :=
  match r.blockOf? s with
  | none => .error (.missing "block of a selected label")
  | some block => .ok
      { tool := r.tool, input := source, choice := s.choice, label := s.label
        args := some (base ++ block.words) }

def commandsFor (r : Recipe) (main : Block) (source : Text) : Except Violation (List Command) :=
  let base := r.baseWords main source
  if r.selections.isEmpty then .ok [{ tool := r.tool, input := source, args := some base }]
  else r.selections.mapM (r.commandOf source base)

/-- The plan has as many commands as there are pairs of a source and a selection. -/
def countText (r : Recipe) (count : Nat) : Text :=
  "plan has " ++ Text.decimal count ++ " commands for " ++ Text.decimal r.sources.length ++
    " sources and " ++ Text.decimal r.selections.length ++ " selections"

/-- The plan of a recipe. A plan without commands has no list of them. -/
def generate (r : Recipe) : Except Violation Plan := do
  demand .precondition (!r.tool.isEmpty) "tool must be set"
  let main ← match r.main with
    | some main => .ok main
    | none => .error (.missing "main options block")
  let commands := (← r.sources.mapM (r.commandsFor main)).flatten
  demand .postcondition (commands.length == r.sources.length * max 1 r.selections.length)
    (r.countText commands.length)
  return ⟨if commands.isEmpty then none else some commands⟩

end Recipe

end Runsheet
