import Runsheet.Proofs.Engine.Steps

/-! The end of a script: a plan is made whenever nothing but the script itself could stand in its
way, and making it changes neither the blocks nor the open case statements. -/
namespace Runsheet

/-- One command after another is made when each of them can be. -/
theorem mapM_eq_ok {α β ε : Type} {f : α → Except ε β} {g : α → β} {xs : List α}
    (h : ∀ x ∈ xs, f x = .ok (g x)) : xs.mapM f = .ok (xs.map g) := by
  induction xs with
  | nil => rfl
  | cons x xs ih =>
      rw [List.mapM_cons, h x List.mem_cons_self, ih fun y hy => h y (List.mem_cons_of_mem _ hy)]
      rfl

namespace Recipe

variable {r : Recipe} {main : Block} {source : Text} {words : Selection → List Text}

/-- Every selected label has a block. -/
def Backed (r : Recipe) : Prop := ∀ x ∈ r.selections, (r.blockOf? x).isSome = true

/-- The selected labels have blocks with the given words. -/
def Holds (r : Recipe) (words : Selection → List Text) : Prop :=
  ∀ x ∈ r.selections, (r.blockOf? x).map Block.words = some (words x)

/-- When every selected label has a block, the words of those blocks can be read off once and for
all. -/
theorem Backed.exists_holds (h : r.Backed) : ∃ words, r.Holds words := by
  refine ⟨fun x => ((r.blockOf? x).map Block.words).getD [], fun x hx => ?_⟩
  obtain ⟨block, hBlock⟩ := Option.isSome_iff_exists.mp (h x hx)
  simp [hBlock]

/-- The commands over one source when the words of the selected labels are known. -/
def commandsWith (r : Recipe) (words : Selection → List Text) (main : Block) (source : Text) :
    List Command :=
  if r.selections.isEmpty then
    [{ tool := r.tool, input := source, args := some (r.baseWords main source) }]
  else r.selections.map fun x =>
    { tool := r.tool, input := source, choice := x.choice, label := x.label
      args := some (r.baseWords main source ++ words x) }

/-- No block is wanted, so the commands over a source can be made. -/
theorem Holds.commandsFor_eq_ok (h : r.Holds words) (main : Block) (source : Text) :
    r.commandsFor main source = .ok (r.commandsWith words main source) := by
  rw [commandsFor, commandsWith]
  split
  · rfl
  · refine mapM_eq_ok fun x hx => ?_
    obtain ⟨block, hBlock, hWords⟩ := Option.map_eq_some_iff.mp (h x hx)
    rw [commandOf, hBlock, ← hWords]

/-- One source has a command for every selection, and one command if there is no selection at all.
-/
theorem length_commandsWith (r : Recipe) (words : Selection → List Text) (main : Block)
    (source : Text) : (r.commandsWith words main source).length = max 1 r.selections.length := by
  rw [commandsWith]
  split
  · rename_i hEmpty
    simp [List.isEmpty_iff.mp hEmpty]
  · rename_i hFilled
    have hLength : 0 < r.selections.length := by
      simpa [List.length_pos_iff] using hFilled
    rw [List.length_map]
    omega

/-- The number of commands is always the one that is checked after they are made. -/
theorem length_commands (r : Recipe) (words : Selection → List Text) (main : Block) :
    (r.sources.flatMap (r.commandsWith words main)).length =
      r.sources.length * max 1 r.selections.length := by
  induction r.sources with
  | nil => simp
  | cons source sources ih =>
      rw [List.flatMap_cons, List.length_append, ih, length_commandsWith, List.length_cons,
        Nat.add_mul, Nat.one_mul, Nat.add_comm]

/-- A recipe with a tool, a main block and a block for every selected label has a plan. -/
theorem Holds.generate_eq_ok (h : r.Holds words) (hTool : r.tool ≠ []) (hMain : r.main = some main) :
    r.generate = .ok ⟨if (r.sources.flatMap (r.commandsWith words main)).isEmpty then none
      else some (r.sources.flatMap (r.commandsWith words main))⟩ := by
  have hSet : (!r.tool.isEmpty) = true := by simpa using hTool
  have hMade : r.sources.mapM (r.commandsFor main) =
      .ok (r.sources.map (r.commandsWith words main)) :=
    mapM_eq_ok fun source _ => h.commandsFor_eq_ok main source
  have hCount := r.length_commands words main
  rw [List.flatMap_def] at hCount ⊢
  simp only [generate, demand, hSet, hMain, hMade, hCount, bind, Except.bind, beq_self_eq_true,
    if_true, pure, Except.pure]

end Recipe

namespace State

variable {config : Config} {s s' : State} {pos : Pos} {selections : List Selection}

/-- The sources of a plan, without what is told about them. -/
def sourcesOf (config : Config) (s : State) : Option (List Text) :=
  if !config.inputs.isEmpty then some config.inputs
  else if !s.sources.isEmpty then some s.sources
  else match s.inputs.axes with
    | [axis] => axis.defaultLabel?.map ([·])
    | _ => none

/-- Finding the sources only adds to the journal; which sources they are depends on the
configuration and the state alone. -/
theorem resolveSources_eq (config : Config) (s : State) :
    ∃ diary, s.resolveSources config = ({ s with toDiary := diary }, s.sourcesOf config) := by
  rw [sourcesOf, resolveSources]
  split
  · split
    · exact ⟨_, rfl⟩
    · exact ⟨_, rfl⟩
  · split
    · exact ⟨_, rfl⟩
    · refine ⟨s.toDiary, ?_⟩
      match s.inputs.axes with
      | [] => rfl
      | [_] => rfl
      | _ :: _ :: _ => rfl

def recipe (s : State) (selections : List Selection) (sources : List Text) : Recipe :=
  { tool := s.tool, sources, main := s.scopes.blocks.getLast?, inputs := s.inputs.axes
    choices := s.choices, selections }

/-- Every selection the engine keeps is of a declared label, and declared labels have blocks. -/
theorem recipe_backed (h : s.toResolver.Sound) (sources : List Text) :
    (s.recipe s.selections sources).Backed := by
  intro x hx
  obtain ⟨a, ha, hLabel⟩ := h.label_declared hx
  change ((s.choices.get? x.choice).bind (·.block? x.label)).isSome = true
  rw [ha]
  exact ((h.choices.of_get? ha).2.2.block?_isSome_iff x.label).mpr hLabel

/-- A plan is made for a tool and at least one source list, from exactly the recipe of the state,
and nothing else of the state changes. -/
theorem makePlan_eq_none (h : makePlan config s selections pos = (s', none)) :
    s.tool ≠ [] ∧ ∃ sources plan diary, s.sourcesOf config = some sources ∧
      (s.recipe selections sources).generate = .ok plan ∧
      s' = { s with plan := some plan, toDiary := diary } := by
  rw [makePlan] at h
  split at h
  · cases h
  · rename_i hTool
    refine ⟨by simpa using hTool, ?_⟩
    obtain ⟨diary, hSources⟩ := resolveSources_eq config s
    rw [hSources] at h
    cases hGiven : s.sourcesOf config with
    | none =>
        rw [hGiven] at h
        cases h
    | some sources =>
        rw [hGiven] at h
        dsimp only at h
        split at h
        · cases h
        · rename_i main hMain
          split at h
          · cases h
          · rename_i plan hPlan
            cases h
            refine ⟨sources, plan, _, rfl, ?_, rfl⟩
            rwa [recipe, Scopes.main_eq_ok_iff.mp hMain]

/-- The selections of the plan are those the engine keeps. -/
theorem endScript_eq_none (h : endScript config s pos = (s', none)) :
    s.endViolation? = none ∧ s.tool ≠ [] ∧
      ∃ r sources plan diary, s.choices.SameButSelected r.choices ∧
        (s.toResolver.Sound → r.Sound) ∧ s.sourcesOf config = some sources ∧
        (recipe { s with toResolver := r } r.selections sources).generate = .ok plan ∧
        s' = { s with
          toResolver := { r with toDiary := diary }, plan := some plan, done := true } := by
  rw [endScript] at h
  split at h
  · cases h
  · rename_i hViolation
    refine ⟨hViolation, ?_⟩
    dsimp only at h
    split at h
    · cases h
    · rename_i r₁ hApply
      split at h
      · cases h
      · rename_i r₂ selections hResolve
        obtain ⟨hSame₁, hSound₁⟩ := Resolver.applyDirectives_spec config.directives s.toResolver
        obtain ⟨hSame₂, hSound₂, hSelections⟩ :=
          Resolver.resolve_spec r₁ s.choiceCaseOccurred pos
        simp only [hApply, hResolve] at hSame₁ hSound₁ hSame₂ hSound₂ hSelections
        cases hSelections _ rfl
        obtain ⟨hTool, sources, plan, diary, hSources, hPlan, rfl⟩ := makePlan_eq_none h
        refine ⟨hTool, r₂, sources, plan, diary, hSame₁.trans hSame₂,
          fun hr => hSound₂ (hSound₁ hr), hSources, hPlan, rfl⟩

end State

end Runsheet
