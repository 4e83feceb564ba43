import Runsheet.Proofs.Engine.Assigned

/-! What the end of a script may find missing: the label of a choice, the tool, the sources. A tool
once named stays, and a default once set stands in for what nothing selects. Only what is empty is
read back as missing, though it was set. -/
namespace Runsheet

def DiagnosticKind.IsOfLabels (kind : DiagnosticKind) : Prop :=
  kind = .unknownChoiceInSelect ∨ kind = .unknownLabelInSelect ∨ kind = .missingDefaultLabel ∨
    kind = .ambiguousChoice

instance : DecidablePred DiagnosticKind.IsOfLabels := fun _ => inferInstanceAs (Decidable (_ ∨ _))

namespace Resolver

variable {r r' : Resolver} {d : Diagnostic}

/-- A directive is refused for its choice or its label only. -/
theorem applyDirectives_kind {directives : List Directive}
    (h : r.applyDirectives directives = (r', some d)) : d.kind.IsOfLabels := by
  obtain ⟨directive, -, r₁, ⟨-, hRejects⟩ | ⟨a, -, -, hRejects⟩⟩ := applyDirectives_refuses h
  · exact Or.inl hRejects.kind_eq
  · exact Or.inr (Or.inl hRejects.kind_eq)

/-- The final labels cannot be resolved for want of a default or for ambiguity, and for no other
reason. -/
theorem resolve_kind {occurred : Bool} {pos : Pos} (h : r.resolve occurred pos = (r', .error d)) :
    d.kind.IsOfLabels := by
  obtain ⟨-, -, hKind⟩ := resolve_refuses h
  exact Or.inr (Or.inr hKind)

end Resolver

namespace State

variable {config : Config} {s s' : State} {pos : Pos} {d : Diagnostic}

/-- No plan is made for want of a tool, or for want of sources. -/
theorem makePlan_kind {selections : List Selection}
    (h : makePlan config s selections pos = (s', some (.diagnostic d))) :
    d.kind = .missingTool ∧ s.tool = [] ∨
      d.kind = .noInputSource ∧ s.tool ≠ [] ∧ s.sourcesOf config = none := by
  obtain ⟨diary, hSources⟩ := resolveSources_eq config s
  rw [makePlan] at h
  split at h
  · rename_i hTool
    cases h
    exact Or.inl ⟨rfl, by simpa using hTool⟩
  · rename_i hTool
    rw [hSources] at h
    cases hGiven : s.sourcesOf config with
    | none =>
        rw [hGiven] at h
        cases h
        exact Or.inr ⟨rfl, by simpa using hTool, rfl⟩
    | some sources =>
        rw [hGiven] at h
        dsimp only at h
        split at h
        · cases h
        · split at h <;> cases h

/-- Why the end of a script is refused when no contract is broken: labels cannot be resolved, or the
tool or the sources are missing. -/
theorem endScript_kind (h : endScript config s pos = (s', some (.diagnostic d))) :
    d.kind.IsOfLabels ∨ d.kind = .missingTool ∧ s.tool = [] ∨
      d.kind = .noInputSource ∧ s.tool ≠ [] ∧ s.sourcesOf config = none := by
  rw [endScript] at h
  split at h
  · cases h
  dsimp only at h
  split at h
  · rename_i hApply
    cases h
    exact Or.inl (Resolver.applyDirectives_kind hApply)
  · split at h
    · rename_i hResolve
      cases h
      exact Or.inl (Resolver.resolve_kind hResolve)
    · have hPlan := makePlan_kind h
      exact Or.inr hPlan

/-- The kinds of refusal come in this order: a broken contract, labels, the tool, and last the
sources, which are not looked for without a tool. -/
theorem step_endScript_kind (h : (s.step config .endScript pos).2 = some d) :
    d.kind = .internalError ∨ d.kind.IsOfLabels ∨ d.kind = .missingTool ∧ s.tool = [] ∨
      d.kind = .noInputSource ∧ s.tool ≠ [] ∧ s.sourcesOf config = none := by
  obtain ⟨failure, hFailure, rfl⟩ := Option.map_eq_some_iff.mp h
  cases failure with
  | violation v => exact Or.inl rfl
  | diagnostic d => exact Or.inr (endScript_kind (Prod.ext rfl hFailure))

end State

section tool

open History State

variable {config : Config} {s : State} {calls : List Call} {name : Text} {pos : Pos} {d : Diagnostic}

/-- Without a tool any is taken, the empty one too. -/
theorem State.step_setTool_of_nil (h : s.tool = []) (name : Text) (pos : Pos) :
    (s.step config (.setTool name) pos).2 = none ∧
      (s.step config (.setTool name) pos).1.tool = name := by
  obtain ⟨s', hTake⟩ : ∃ s', s.take config (.setTool name) pos = (s', none) := by
    rw [take, setTool, if_neg (by simp [h])]
    dsimp only
    split <;> exact ⟨_, rfl⟩
  obtain ⟨-, diary, rfl⟩ := setTool_eq_none hTake
  simp [hTake]

/-- With a tool no other is taken. -/
theorem State.step_setTool_of_ne_nil (h : s.tool ≠ []) (name : Text) (pos : Pos) :
    ∃ d, s.step config (.setTool name) pos = (s, some d) ∧ d.kind = .duplicateDeclaration := by
  refine ⟨s.toolSet pos, ?_, rfl⟩
  rw [step, take, setTool, if_pos (by simpa using h)]
  rfl

/-- A named tool is one that a statement names, and not with the empty name. -/
theorem ne_nil_of_named {events : List Event} (h : name ∈ namedTools events) :
    name ∈ tools events ∧ name ≠ [] := by
  simpa using List.mem_filter.mp h

/-- A tool that was named is the tool after any further calls. -/
theorem State.tool_of_named (h : name ∈ namedTools (accepted config {} calls)) (more : List Call) :
    (after config {} (calls ++ more)).tool = name := by
  have hNamed := (assigned_after config (calls ++ more)).namedTools_eq
  have hMem : name ∈ namedTools (accepted config {} (calls ++ more)) := by
    rw [accepted_append, namedTools, tools, List.filterMap_append, List.filter_append]
    exact List.mem_append_left _ h
  rw [hNamed] at hMem
  split at hMem
  · cases hMem
  · exact (List.mem_singleton.mp hMem).symm

/-- After a tool was named, none is taken. -/
theorem State.tools_of_named (h : name ∈ namedTools (accepted config {} calls)) (more : List Call) :
    tools (accepted config (after config {} calls) more) = [] := by
  obtain ⟨hSet, hName⟩ := ne_nil_of_named h
  have hUnnamed := (assigned_after config (calls ++ more)).unnamed
  rw [accepted_append, tools, List.filterMap_append, ← tools, ← tools] at hUnnamed
  by_contra hMore
  rw [List.dropLast_append_of_ne_nil hMore] at hUnnamed
  exact hName (hUnnamed name (List.mem_append_left _ hSet))

/-- The end of a script finds the tool missing only where there is none. -/
theorem State.tool_of_missingTool (h : (s.step config .endScript pos).2 = some d)
    (hKind : d.kind = .missingTool) : s.tool = [] := by
  have hReason := step_endScript_kind h
  rw [hKind] at hReason
  rcases hReason with h | h | ⟨-, hTool⟩ | ⟨h, -, -⟩
  · cases h
  · exact absurd h (by decide)
  · exact hTool
  · cases h

/-- A tool is named at most once. Until then any tool is taken; from then on it is the tool, no other
is taken, and no end of the script finds it missing. -/
theorem State.tool_named_once (config : Config) (calls : List Call) :
    (namedTools (accepted config {} calls)).length ≤ 1 ∧
      (namedTools (accepted config {} calls) = [] → ∀ name pos,
        ((after config {} calls).step config (.setTool name) pos).2 = none ∧
          ((after config {} calls).step config (.setTool name) pos).1.tool = name) ∧
      (∀ name ∈ namedTools (accepted config {} calls), ∀ more,
        (after config {} (calls ++ more)).tool = name ∧
          tools (accepted config (after config {} calls) more) = [] ∧
          ∀ other pos, ∃ d, (after config {} (calls ++ more)).step config (.setTool other) pos =
            (after config {} (calls ++ more), some d) ∧ d.kind = .duplicateDeclaration) ∧
      ∀ pos d, ((after config {} calls).step config .endScript pos).2 = some d →
        d.kind = .missingTool → namedTools (accepted config {} calls) = [] := by
  have hNamed := (assigned_after config calls).namedTools_eq
  refine ⟨?_, fun hNone => ?_, fun name hName more => ?_, fun pos d hEnd hKind => ?_⟩
  · rw [hNamed]
    split <;> simp
  · refine State.step_setTool_of_nil ?_
    by_contra hTool
    rw [if_neg hTool, hNone] at hNamed
    cases hNamed
  · have hTool := State.tool_of_named hName more
    have hNonempty := (ne_nil_of_named hName).2
    exact ⟨hTool, State.tools_of_named hName more, State.step_setTool_of_ne_nil (hTool ▸ hNonempty)⟩
  · rw [hNamed, if_pos (State.tool_of_missingTool hEnd hKind)]

/-- An empty tool is taken, then one with a name, then no other. -/
def renamedTool : List Call :=
  [.beginScript, .setTool [], .setTool "t", .setTool "u"].map (·, Pos.none)

/-- The first statement names nothing and is forgotten, the second sets the tool, and a third cannot
change it. -/
theorem State.tool_named_once_renamedTool :
    tools (accepted {} {} renamedTool) = [[], "t"] ∧
      namedTools (accepted {} {} renamedTool) = ["t"] ∧
      (after {} {} (renamedTool ++ [(.setTool "v", .none)])).tool = "t" := by
  have hNamed : namedTools (accepted {} {} renamedTool) = ["t"] := by decide +kernel
  have hKept := (State.tool_named_once {} renamedTool).2.2.1 "t" (by simp [hNamed])
  exact ⟨by decide +kernel, hNamed, (hKept [(.setTool "v", .none)]).1⟩

/-- Two tools are taken when the first is empty, and an empty tool is missing at the end. -/
theorem State.not_tool_once :
    (tools (accepted {} {} renamedTool)).length = 2 ∧
      ∃ d, ((after {} {} [(.beginScript, .none), (.setTool [], .none)]).step {} .endScript .none).2 =
          some d ∧ d.kind = .missingTool ∧
        tools (accepted {} {} [(.beginScript, .none), (.setTool [], .none)]) = [[]] := by
  refine ⟨by decide +kernel, _, rfl, rfl, by decide +kernel⟩

end tool

section default

open History

/-- The only axis of its sort has a default, which was set last of all its defaults. -/
structure History.OnlyDefault (kind : AxisKind) (name label : Text) (events : List Event) : Prop where
  only : ∀ other, .declare kind other ∈ events ↔ other = name
  last : (defaults kind name events).getLast? = some label

/-- The commands of a plan are those over its sources. -/
theorem Recipe.Holds.toList_of_generate {r : Recipe} {words : Selection → List Text} {main : Block}
    {plan : Plan} (hWords : r.Holds words) (hTool : r.tool ≠ []) (hMain : r.main = some main)
    (h : r.generate = .ok plan) : plan.toList = r.sources.flatMap (r.commandsWith words main) := by
  rw [hWords.generate_eq_ok hTool hMain] at h
  cases h
  rw [Plan.toList]
  split
  · rename_i hEmpty
    exact (List.isEmpty_iff.mp hEmpty).symm
  · rfl

/-- The commands over a source are there, and all of them are over it. -/
theorem Recipe.commandsWith_input (r : Recipe) (words : Selection → List Text) (main : Block)
    (source : Text) : r.commandsWith words main source ≠ [] ∧
      ∀ c ∈ r.commandsWith words main source, c.input = source := by
  have hLength := r.length_commandsWith words main source
  constructor
  · rw [← List.length_pos_iff]
    omega
  · intro c hc
    rw [commandsWith] at hc
    split at hc
    · rw [List.mem_singleton.mp hc]
    · obtain ⟨x, -, rfl⟩ := List.mem_map.mp hc
      rfl

/-- Nothing is asked for without select statements. -/
theorem History.requests_of_no_select {events : List Event}
    (h : ∀ choice label, .select choice label ∉ events) (directives : List Directive) :
    requests directives events = [] := by
  induction events using List.reverseRecOn with
  | nil => rfl
  | append_singleton events e ih =>
      have hBefore := ih fun choice label hMem => h choice label (List.mem_append_left _ hMem)
      rw [requests_append, hBefore, List.nil_append]
      cases e with
      | select choice label => exact absurd (by simp) (h choice label)
      | _ => rfl

/-- When nothing is selected, the only choice gives its default, unless that is empty. -/
theorem Resolver.resolve_only {r : Resolver} {a : Axis} (hNone : r.selections = [])
    (hAxes : r.choices.axes = [a]) (occurred : Bool) (pos : Pos) :
    (a.default ≠ [] → ∃ r', r.resolve occurred pos = (r', .ok r'.selections) ∧
        r'.selections = [⟨a.name, a.default⟩]) ∧
      (a.default = [] →
        ∃ d, r.resolve occurred pos = (r, .error d) ∧ d.kind = .missingDefaultLabel) := by
  constructor
  · intro hDefault
    have hLabel : a.defaultLabel? = some a.default := by simp [Axis.defaultLabel?, hDefault]
    simp [resolve, hNone, hAxes, hLabel, add, note]
  · intro hDefault
    have hLabel : a.defaultLabel? = none := by simp [Axis.defaultLabel?, hDefault]
    simp [resolve, hNone, hAxes, hLabel]

namespace State

variable {config : Config} {s s' : State} {pos : Pos} {calls : List Call} {kind : AxisKind}
  {name label : Text}

/-- The axis that has the default. -/
theorem axis_of_onlyDefault (hDone : (after config {} calls).done = false)
    (h : OnlyDefault kind name label (accepted config {} calls)) :
    ∃ a, ((after config {} calls).registry kind).axes = [a] ∧ a.name = name ∧ a.default = label := by
  have hTold := told_after config calls hDone
  have hSound := (sound_after config calls).registry kind
  have hNames : ((after config {} calls).registry kind).names = [name] := by
    apply List.perm_singleton.mp
    rw [List.perm_ext_iff_of_nodup hSound.names_nodup (List.nodup_singleton name)]
    intro other
    rw [hTold.names, h.only, List.mem_singleton]
  obtain ⟨a, hAxes, rfl⟩ := List.map_eq_singleton_iff.mp hNames
  have hGet := Registry.get?_of_mem hSound.names_nodup (hAxes ▸ List.mem_singleton_self a)
  have hDefault := (assigned_after config calls).default kind a.name
  rw [Registry.defaultOf_eq hGet, List.getLastD_eq_getLast?, h.last] at hDefault
  exact ⟨a, hAxes, rfl, hDefault⟩

/-- Making the plan leaves the selections as they were resolved. -/
theorem makePlan_selections (config : Config) (s : State) (selections : List Selection) (pos : Pos) :
    (makePlan config s selections pos).1.selections = s.selections := by
  cases hPlan : makePlan config s selections pos with
  | mk s' failure =>
      cases failure with
      | none =>
          obtain ⟨-, sources, plan, diary, -, -, rfl⟩ := makePlan_eq_none hPlan
          rfl
      | some f =>
          obtain ⟨diary, rfl⟩ := makePlan_eq_some hPlan
          rfl

/-- Without directives, the end of a script resolves what the select statements left open. -/
theorem endScript_undirected (hAdmits : s.Admits .endScript) (hDirectives : config.directives = [])
    (pos : Pos) :
    endScript config s pos = match s.toResolver.resolve s.choiceCaseOccurred pos with
      | (r, .error d) => ({ s with toResolver := r, done := true }, some (.diagnostic d))
      | (r, .ok selections) =>
        makePlan config { s with toResolver := r, done := true } selections pos := by
  obtain ⟨hDone, hDepth, hCases⟩ := hAdmits
  have hViolation : s.endViolation? = none := by simp [endViolation?, hDone, hDepth, hCases]
  rw [endScript, hViolation, hDirectives]
  rfl

/-- The end of a script after some calls. -/
def ended (config : Config) (calls : List Call) (pos : Pos) : State × Option Diagnostic :=
  (after config {} calls).step config .endScript pos

/-- The default of the only choice is selected when nothing is asked for, and so it is not missing.
An empty default is. -/
theorem choice_default (hAdmits : (after config {} calls).Admits .endScript) (pos : Pos)
    (hDirectives : config.directives = [])
    (hSelects : ∀ choice label, .select choice label ∉ accepted config {} calls)
    (h : OnlyDefault .choice name label (accepted config {} calls)) :
    (label ≠ [] →
        (ended config calls pos).1.selections = [⟨name, label⟩] ∧
        ∀ d ∈ (ended config calls pos).2, d.kind ≠ .missingDefaultLabel) ∧
      (label = [] →
        (ended config calls pos).1.selections = [] ∧
        ∃ d ∈ (ended config calls pos).2, d.kind = .missingDefaultLabel) := by
  obtain ⟨a, hAxes, rfl, rfl⟩ := axis_of_onlyDefault hAdmits.1 h
  have hNone : (after config {} calls).selections = [] := by
    rw [(told_after config calls hAdmits.1).selections, requests_of_no_select hSelects]
    rfl
  have hEnd := endScript_undirected hAdmits hDirectives pos
  obtain ⟨hDefault, hEmpty⟩ := Resolver.resolve_only hNone hAxes
    (after config {} calls).choiceCaseOccurred pos
  constructor
  · intro hLabel
    obtain ⟨r, hResolve, hSelections⟩ := hDefault hLabel
    rw [hResolve] at hEnd
    refine ⟨?_, fun d hd hKind => ?_⟩
    · rw [ended, step_fst, take, hEnd, makePlan_selections]
      exact hSelections
    · obtain ⟨failure, hFailure, rfl⟩ := Option.map_eq_some_iff.mp hd
      have hPlan : (endScript config (after config {} calls) pos).2 = some failure := hFailure
      rw [hEnd] at hPlan
      cases failure with
      | violation v => cases hKind
      | diagnostic d =>
          rcases makePlan_kind (Prod.ext rfl hPlan) with ⟨hOther, -⟩ | ⟨hOther, -⟩ <;>
            cases hKind.symm.trans hOther
  · intro hLabel
    obtain ⟨d, hResolve, hKind⟩ := hEmpty hLabel
    rw [hResolve] at hEnd
    refine ⟨?_, d, ?_, hKind⟩
    · rw [ended, step_fst, take, hEnd]
      exact hNone
    · rw [ended, step, take, hEnd]
      rfl

/-- The default of the only input axis is the only source when none is given, and so sources are not
missing. With an empty default they are, unless labels cannot be resolved. -/
theorem input_default (hAdmits : (after config {} calls).Admits .endScript) (pos : Pos)
    (hTool : namedTools (accepted config {} calls) ≠ [])
    (hSources : History.sources (accepted config {} calls) = []) (hInputs : config.inputs = [])
    (h : OnlyDefault .input name label (accepted config {} calls)) :
    (label ≠ [] →
        (∀ d ∈ (ended config calls pos).2, d.kind.IsOfLabels) ∧
        ((ended config calls pos).2 = none →
          ∃ plan, (ended config calls pos).1.plan = some plan ∧
            plan.toList ≠ [] ∧ ∀ c ∈ plan.toList, c.input = label)) ∧
      (label = [] → ∃ d ∈ (ended config calls pos).2,
        d.kind.IsOfLabels ∨ d.kind = .noInputSource) := by
  obtain ⟨a, hAxes, rfl, rfl⟩ := axis_of_onlyDefault hAdmits.1 h
  have hAssigned := assigned_after config calls
  have hNamed : (after config {} calls).tool ≠ [] := by
    rw [hAssigned.namedTools_eq] at hTool
    by_contra hNone
    exact hTool (if_pos hNone)
  have hSound := sound_after config calls
  rw [← hAssigned.sources] at hSources
  rw [ended]
  generalize after config {} calls = s at *
  have hGiven : s.sourcesOf config = a.defaultLabel?.map ([·]) := by
    have hOnly : s.inputs.axes = [a] := hAxes
    simp [sourcesOf, hInputs, hSources, hOnly]
  have hFailed : ∀ d ∈ (s.step config .endScript pos).2,
      d.kind.IsOfLabels ∨ d.kind = .noInputSource ∧ a.default = [] := by
    intro d hd
    rcases step_endScript_kind hd with hKind | hKind | ⟨-, hMissing⟩ | ⟨hKind, -, hMissing⟩
    · -- The end is admitted, so no contract is broken.
      obtain ⟨failure, hFailure, rfl⟩ := Option.map_eq_some_iff.mp hd
      obtain ⟨d, rfl, hUser⟩ := endScript_some hSound hAdmits (Prod.ext rfl hFailure)
      exact absurd hKind hUser.2.1
    · exact Or.inl hKind
    · exact absurd hMissing hNamed
    · rw [hGiven, Option.map_eq_none_iff, Axis.defaultLabel?] at hMissing
      exact Or.inr ⟨hKind, by simpa using hMissing⟩
  constructor
  · intro hLabel
    refine ⟨fun d hd => (hFailed d hd).resolve_right fun h => hLabel h.2, fun hEnd => ?_⟩
    obtain ⟨-, -, r, given, plan, diary, -, hResolved, hFound, hPlan, hState⟩ := endScript_eq_none
      (Prod.ext rfl (step_snd_eq_none_iff.mp hEnd))
    have hOnly : given = [a.default] := by
      have hDefault : a.defaultLabel? = some a.default := by simp [Axis.defaultLabel?, hLabel]
      rw [hGiven, hDefault] at hFound
      exact (Option.some.inj hFound).symm
    obtain ⟨main, hMain⟩ : ∃ main, s.scopes.blocks.getLast? = some main := by
      apply Option.isSome_iff_exists.mp
      have hDepth : s.scopes.blocks.length = 1 := hAdmits.2.1
      simp [← List.length_pos_iff, hDepth]
    obtain ⟨words, hWords⟩ := (@recipe_backed { s with toResolver := r }
      (hResolved hSound.resolver) given).exists_holds
    have hCommands := hWords.toList_of_generate hNamed hMain hPlan
    rw [recipe, hOnly, List.flatMap_singleton] at hCommands
    refine ⟨plan, congrArg State.plan hState, ?_⟩
    rw [hCommands]
    exact Recipe.commandsWith_input _ words main a.default
  · intro hLabel
    cases hEnd : (s.step config .endScript pos).2 with
    | some d => exact ⟨d, rfl, (hFailed d hEnd).imp_right And.left⟩
    | none =>
        obtain ⟨-, -, r, given, plan, diary, -, -, hFound, -⟩ :=
          endScript_eq_none (Prod.ext rfl (step_snd_eq_none_iff.mp hEnd))
        rw [hGiven, Axis.defaultLabel?, hLabel] at hFound
        cases hFound

/-- A default stands in for what nothing selects, if it is not empty: that of the only choice for a
select statement, that of the only input axis for a source. -/
theorem default_honoured (config : Config) (calls : List Call)
    (hAdmits : (after config {} calls).Admits .endScript) (pos : Pos) :
    (config.directives = [] → (∀ choice label, .select choice label ∉ accepted config {} calls) →
        ∀ name label, OnlyDefault .choice name label (accepted config {} calls) →
        (label ≠ [] →
          (ended config calls pos).1.selections = [⟨name, label⟩] ∧
          ∀ d ∈ (ended config calls pos).2, d.kind ≠ .missingDefaultLabel) ∧
        (label = [] →
          (ended config calls pos).1.selections = [] ∧
          ∃ d ∈ (ended config calls pos).2, d.kind = .missingDefaultLabel)) ∧
      (namedTools (accepted config {} calls) ≠ [] →
        History.sources (accepted config {} calls) = [] → config.inputs = [] →
        ∀ name source, OnlyDefault .input name source (accepted config {} calls) →
        (source ≠ [] →
          (∀ d ∈ (ended config calls pos).2, d.kind.IsOfLabels) ∧
          ((ended config calls pos).2 = none →
            ∃ plan, (ended config calls pos).1.plan = some plan ∧
              plan.toList ≠ [] ∧ ∀ c ∈ plan.toList, c.input = source)) ∧
        (source = [] → ∃ d ∈ (ended config calls pos).2,
          d.kind.IsOfLabels ∨ d.kind = .noInputSource)) :=
  ⟨fun hDirectives hSelects _ _ h => choice_default hAdmits pos hDirectives hSelects h,
    fun hTool hSources hInputs _ _ h => input_default hAdmits pos hTool hSources hInputs h⟩

/-- A choice whose default is set twice, and an input axis with a default. -/
def defaultedAxes : List Call :=
  [.beginScript, .setTool "t", .declare .choice "c", .addLabel .choice "c" "a",
    .addLabel .choice "c" "b", .setDefault .choice "c" "a", .setDefault .choice "c" "b",
    .declare .input "i", .addLabel .input "i" "s", .setDefault .input "i" "s"].map (·, Pos.none)

/-- A choice and an input axis with defaults, neither selected nor given: the plan has the default
of each. -/
theorem default_honoured_defaultedAxes :
    (after {} {} defaultedAxes).Admits .endScript ∧
      (∀ choice label, .select choice label ∉ accepted {} {} defaultedAxes) ∧
      OnlyDefault .choice "c" "b" (accepted {} {} defaultedAxes) ∧
      OnlyDefault .input "i" "s" (accepted {} {} defaultedAxes) ∧
      (ended {} defaultedAxes .none).1.selections = [⟨"c", "b"⟩] ∧
      ∃ plan, (ended {} defaultedAxes .none).1.plan = some plan ∧
        plan.toList ≠ [] ∧ ∀ c ∈ plan.toList, c.input = "s" := by
  have hEvents : accepted {} {} defaultedAxes = defaultedAxes.map Prod.fst := by decide +kernel
  have hAdmits : (after {} {} defaultedAxes).Admits .endScript := by
    refine ⟨rfl, rfl, rfl⟩
  have hSelects : ∀ choice label, .select choice label ∉ accepted {} {} defaultedAxes := by
    intro choice label
    rw [hEvents]
    simp [defaultedAxes]
  have hChoice : OnlyDefault .choice "c" "b" (accepted {} {} defaultedAxes) := by
    rw [hEvents]
    exact ⟨fun other => by simp [defaultedAxes], by decide +kernel⟩
  have hInput : OnlyDefault .input "i" "s" (accepted {} {} defaultedAxes) := by
    rw [hEvents]
    exact ⟨fun other => by simp [defaultedAxes], by decide +kernel⟩
  obtain ⟨hFirst, hSecond⟩ := default_honoured {} defaultedAxes hAdmits .none
  have hSelected := (hFirst rfl hSelects "c" "b" hChoice).1 (by decide)
  have hSource := (hSecond (by decide +kernel) (by decide +kernel) rfl "i" "s" hInput).1 (by decide)
  exact ⟨hAdmits, hSelects, hChoice, hInput, hSelected.1, hSource.2 (by decide +kernel)⟩

/-- A choice whose empty label is its default. -/
def emptyDefault : List Call :=
  [.beginScript, .declare .choice "c", .addLabel .choice "c" "a", .addLabel .choice "c" [],
    .setDefault .choice "c" [], .setTool "t", .addSource "s"].map (·, Pos.none)

/-- The empty default is set, and at the end it is missing. -/
theorem not_default_honoured_emptyDefault :
    (after {} {} emptyDefault).Admits .endScript ∧
      OnlyDefault .choice "c" [] (accepted {} {} emptyDefault) ∧
      (∀ choice label, .select choice label ∉ accepted {} {} emptyDefault) ∧
      (ended {} emptyDefault .none).1.selections ≠ [⟨"c", []⟩] ∧
      ∃ d ∈ (ended {} emptyDefault .none).2, d.kind = .missingDefaultLabel := by
  have hEvents : accepted {} {} emptyDefault = emptyDefault.map Prod.fst := by decide +kernel
  refine ⟨⟨rfl, rfl, rfl⟩, ?_, ?_, by decide +kernel, _, rfl, rfl⟩
  · rw [hEvents]
    exact ⟨fun other => by simp [emptyDefault], by decide +kernel⟩
  · rw [hEvents]
    simp [emptyDefault]

end State

end default

end Runsheet
