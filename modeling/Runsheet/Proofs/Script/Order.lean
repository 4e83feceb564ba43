import Runsheet.Proofs.Engine.History
import Runsheet.Proofs.Script.Meaning

/-! What the order of a script's statements means for its plan. Selections, too, are read off the
tree: a label stands for what its choice has in the whole script. So every part of a plan comes of
the statements of one sort alone, and only their own order matters. -/
namespace Runsheet

/-- The sorts of statements. Select and every statements are one sort. -/
inductive StatementSort
  | tool
  | source
  | axis (kind : AxisKind)
  | option
  | case
  | select
  deriving DecidableEq

def Statement.sort : Statement → StatementSort
  | .tool _ => .tool
  | .source _ => .source
  | .axis kind .. => .axis kind
  | .option .. => .option
  | .case .. => .case
  | .select .. => .select
  | .every _ => .select

namespace Script

def labelsOf (script : List Statement) (choice : Text) : List Text :=
  (((axes .choice script).find? (·.name == choice)).map AxisDeclaration.labels).getD []

/-- What the select and every statements ask for, in order. -/
def selects (script : List Statement) : List Directive := script.filterMap fun
  | .select choice label => some ⟨choice, label⟩
  | .every choice => some ⟨choice, allLabels⟩
  | _ => none

theorem selects_append (first second : List Statement) :
    selects (first ++ second) = selects first ++ selects second :=
  List.filterMap_append

/-- What a request stands for. -/
def expansion (script : List Statement) (d : Directive) : List Selection :=
  Selection.expansion (labelsOf script d.choice) d.choice d.label

/-- What the script itself selects: its requests for choices that no directive names. -/
def requests (directives : List Directive) (script : List Statement) : List Selection :=
  ((selects script).filter fun d => !directives.any (·.choice == d.choice)).flatMap
    (expansion script)

/-- Everything that is asked for, by the script and then by the directives. -/
def asked (directives : List Directive) (script : List Statement) : List Selection :=
  requests directives script ++ directives.flatMap (expansion script)

/-- The selections of a script: what is asked for, once and in order, else the default of the only
choice. -/
def selections (directives : List Directive) (script : List Statement) : List Selection :=
  if asked directives script ≠ [] then (asked directives script).eraseDups
  else match axes .choice script with
    | [axis] => [⟨axis.name, axis.default⟩]
    | _ => []

section append

variable {first second : List Statement}

/-- A choice keeps its labels whatever follows. -/
theorem labelsOf_append {choice : Text}
    (h : choice ∈ (axes .choice first).map AxisDeclaration.name) :
    labelsOf (first ++ second) choice = labelsOf first choice := by
  obtain ⟨axis, hMem, rfl⟩ := List.mem_map.mp h
  have hFound : ((axes .choice first).find? (·.name == axis.name)).isSome :=
    List.find?_isSome.mpr ⟨axis, hMem, beq_self_eq_true _⟩
  rw [labelsOf, labelsOf, axes_append, List.find?_append, Option.or_of_isSome hFound]

/-- What was asked for is not asked for anew by what follows, if its choices were there. -/
theorem requests_append (directives : List Directive)
    (h : ∀ d ∈ selects first, d.choice ∈ (axes .choice first).map AxisDeclaration.name) :
    requests directives (first ++ second) = requests directives first ++
      ((selects second).filter fun d => !directives.any (·.choice == d.choice)).flatMap
        (expansion (first ++ second)) := by
  have hOld : ∀ d ∈ (selects first).filter fun d => !directives.any (·.choice == d.choice),
      expansion (first ++ second) d = expansion first d := by
    intro d hd
    rw [expansion, expansion, labelsOf_append (h d (List.mem_of_mem_filter hd))]
  rw [requests, selects_append, List.filter_append, List.flatMap_append,
    List.flatMap_congr hOld]
  rfl

end append

section sorts

variable {β : Type}

/-- What comes of statements of one sort comes of these alone. -/
theorem filterMap_sort {f : Statement → Option β} {sort : StatementSort}
    (h : ∀ statement, statement.sort ≠ sort → f statement = none) (script : List Statement) :
    (script.filter (·.sort = sort)).filterMap f = script.filterMap f := by
  rw [List.filterMap_filter]
  congr
  funext statement
  by_cases hSort : statement.sort = sort
  · simp [hSort]
  · simp [hSort, h statement hSort]

/-- What only statements of one sort give can be gathered from those statements alone. -/
theorem flatMap_sort {f : Statement → List β} {sort : StatementSort}
    (h : ∀ statement, statement.sort ≠ sort → f statement = []) (script : List Statement) :
    (script.filter (·.sort = sort)).flatMap f = script.flatMap f := by
  induction script with
  | nil => rfl
  | cons statement script ih =>
      by_cases hSort : statement.sort = sort
      · simp [hSort, ih]
      · simp [hSort, ih, h statement hSort]

end sorts

/-- Whether two scripts have the same statements, and those of each sort in the same order. Tool
statements may stand anywhere. -/
structure Reordered (script script' : List Statement) : Prop where
  perm : script.Perm script'
  order : ∀ sort ≠ .tool, script.filter (·.sort = sort) = script'.filter (·.sort = sort)

namespace Reordered

variable {script script' : List Statement}

/-- Reordering keeps which tools are named, if not the places where they stand. -/
theorem tools (h : Reordered script script') : (tools script).Perm (tools script') :=
  h.perm.filterMap _

/-- Sources keep their order, since statements of one sort are never exchanged with each other. -/
theorem sources (h : Reordered script script') : sources script = sources script' := by
  have hSort : ∀ script, (script.filter (·.sort = .source)).filterMap _ = Script.sources script :=
    filterMap_sort fun statement hOther => by
      cases statement with
      | source name => exact absurd rfl hOther
      | _ => rfl
  rw [← hSort, ← hSort, h.order .source nofun]

/-- Options outside of case statements keep their order among themselves, and so does the main
block. -/
theorem main (h : Reordered script script') : main script = main script' := by
  have hSort : ∀ script, (script.filter (·.sort = .option)).filterMap _ = Script.main script :=
    filterMap_sort fun statement hOther => by
      cases statement with
      | option name value => exact absurd rfl hOther
      | _ => rfl
  rw [← hSort, ← hSort, h.order .option nofun]

/-- Case statements keep their order, so every label gets the same words in the same order. -/
theorem contributions (h : Reordered script script') :
    contributions script = contributions script' := by
  have hSort : ∀ script, (script.filter (·.sort = .case)).flatMap _ = Script.contributions script :=
    flatMap_sort fun statement hOther => by
      cases statement with
      | case subject alternatives => exact absurd rfl hOther
      | _ => rfl
  rw [← hSort, ← hSort, h.order .case nofun]

/-- Declarations keep their order, so both registries list the same axes. -/
theorem axes (h : Reordered script script') (kind : AxisKind) :
    axes kind script = axes kind script' := by
  have hSort : ∀ script, (script.filter (·.sort = .axis kind)).filterMap _ = Script.axes kind script :=
    filterMap_sort fun statement hOther => by
      cases statement with
      | axis kind' name label labels default =>
          exact if_neg fun hKind => hOther (congrArg StatementSort.axis hKind)
      | _ => rfl
  rw [← hSort, ← hSort, h.order (.axis kind) nofun]

/-- Select statements keep their order, and with it the order of the selections they make. -/
theorem selects (h : Reordered script script') : selects script = selects script' := by
  have hSort : ∀ script, (script.filter (·.sort = .select)).filterMap _ = Script.selects script :=
    filterMap_sort fun statement hOther => by
      cases statement with
      | select choice label => exact absurd rfl hOther
      | every choice => exact absurd rfl hOther
      | _ => rfl
  rw [← hSort, ← hSort, h.order .select nofun]

theorem resolvedSources (h : Reordered script script') (config : Config) :
    resolvedSources config script = resolvedSources config script' := by
  rw [Script.resolvedSources, Script.resolvedSources, h.sources, h.axes]

/-- All that a command is made of is kept, so the commands over one source are the same. -/
theorem commandsFor (h : Reordered script script') (tool : Text) (selections : List Selection) :
    commandsFor script tool selections = commandsFor script' tool selections := by
  have hBlock : block script = block script' := by
    funext axis label
    rw [block, block, h.contributions]
  funext source
  simp only [Script.commandsFor, baseWords, hBlock, h.main, h.axes]

theorem commands (h : Reordered script script') (tool : Text) (sources : List Text)
    (selections : List Selection) :
    commands script tool sources selections = commands script' tool sources selections := by
  rw [Script.commands, Script.commands, h.commandsFor]

/-- What select statements ask for depends on the labels declared in the script, not on where they
are declared. -/
theorem selections (h : Reordered script script') (directives : List Directive) :
    selections directives script = selections directives script' := by
  have hExpansion : expansion script = expansion script' := by
    funext d
    rw [expansion, expansion, labelsOf, labelsOf, h.axes]
  have hAsked : asked directives script = asked directives script' := by
    rw [asked, asked, requests, requests, h.selects, hExpansion]
  rw [Script.selections, Script.selections, hAsked, h.axes]

end Reordered

end Script

end Runsheet
