import Runsheet.Proofs.Engine.Meaning
import Runsheet.Proofs.Engine.Resolution
import Runsheet.Proofs.Script.Order

/-! The engine puts statements of different sorts together only at the end of a script. So its plan
is told from the tree and the directives alone, and statements may trade places with those of other
sorts. Whether a run comes to its end does depend on their order: a select statement before the
declaration of its choice is refused. -/
namespace Runsheet

def openingEvents (script : List Statement) : List Event :=
  .beginScript :: script.flatMap Statement.events

/-- One statement more adds its events at the end, with no other event in between. -/
theorem openingEvents_append (script : List Statement) (statement : Statement) :
    openingEvents (script ++ [statement]) = openingEvents script ++ statement.events := by
  simp [openingEvents]

/-- Whether an event neither selects nor ends the script. -/
def Event.describes : Event → Bool
  | .select .. | .endScript => false
  | _ => true

section events

/-- An alternative and what follows it only describe when its elements do. -/
theorem describes_alternative {label : Text} {labels : List Text} {elements more : List Event}
    (hElements : ∀ e ∈ elements, e.describes = true) (hMore : ∀ e ∈ more, e.describes = true) :
    ∀ e ∈ .beginAlternative :: labelEvents label labels ++ elements ++ .endAlternative :: more,
      e.describes = true := by
  simp only [labelEvents, List.mem_append, List.mem_cons, List.mem_map]
  rintro e (((rfl | ⟨l, -, rfl⟩) | he) | rfl | he)
  · rfl
  · rfl
  · exact hElements e he
  · rfl
  · exact hMore e he

mutual

/-- Everything in an alternative only describes: neither selections nor ends of scripts can stand
there. By induction on its elements. -/
theorem Body.describes_events (b : Body) : ∀ e ∈ b.events, e.describes = true := by
  match b with
  | .nil => nofun
  | .option name value rest =>
      have hRest := rest.describes_events
      simpa [Body.events, Event.describes] using hRest
  | .case subject alternatives rest =>
      have hAlternatives := alternatives.describes_events
      have hRest := rest.describes_events
      simp only [Body.events, List.mem_append, List.mem_cons]
      rintro e ((rfl | he) | rfl | he)
      · rfl
      · exact hAlternatives e he
      · rfl
      · exact hRest e he

theorem Alternatives.describes_events (a : Alternatives) : ∀ e ∈ a.events, e.describes = true := by
  match a with
  | .last label labels body => exact describes_alternative body.describes_events nofun
  | .cons label labels body rest =>
      exact describes_alternative body.describes_events rest.describes_events

end

/-- A statement that is not a select statement only describes, and so its place among the select
statements does not matter. -/
theorem Statement.describes_events {statement : Statement} (h : statement.sort ≠ .select) :
    ∀ e ∈ statement.events, e.describes = true := by
  cases statement with
  | tool name => simp [Statement.events, Event.describes]
  | source name => simp [Statement.events, Event.describes]
  | option name value => simp [Statement.events, Event.describes]
  | axis kind name label labels default =>
      simp only [Statement.events, List.mem_append, List.mem_cons, List.mem_map, Option.mem_toList,
        Option.map_eq_some_iff]
      rintro e ((rfl | ⟨l, -, rfl⟩) | ⟨l, -, rfl⟩) <;> rfl
  | case subject alternatives =>
      simp only [Statement.events, List.mem_append, List.mem_cons]
      rintro e ((rfl | he) | rfl | he)
      · rfl
      · exact alternatives.describes_events e he
      · rfl
      · cases he
  | select choice label => exact absurd rfl h
  | every choice => exact absurd rfl h

theorem Statement.endScript_notMem_events (statement : Statement) :
    .endScript ∉ statement.events := by
  by_cases hSort : statement.sort = .select
  · cases statement with
    | select choice label => simp [Statement.events]
    | every choice => simp [Statement.events]
    | _ => cases hSort
  · intro hMem
    cases statement.describes_events hSort _ hMem

end events

/-- Events that do not select ask for nothing. -/
theorem History.requestsAfter_describing {events : List Event}
    (h : ∀ e ∈ events, e.describes = true) (directives : List Directive) (before : List Event) :
    requestsAfter directives before events = [] := by
  induction events generalizing before with
  | nil => rfl
  | cons e events ih =>
      have hNone : request directives before e = [] := by
        have hFirst := h e List.mem_cons_self
        cases e with
        | select choice label => cases hFirst
        | _ => rfl
      rw [requestsAfter, hNone, List.nil_append]
      exact ih (fun e he => h e (List.mem_cons_of_mem _ he)) _

namespace State

open History

variable {config : Config} {s s' : State} {events : List Event}

namespace SoundRun

/-- Nothing but the diary changes where nothing is taken. -/
theorem eq_of_nil (h : SoundRun config s [] s') : ∃ diary, s' = { s with toDiary := diary } := by
  cases h.ran with
  | nil _ diary => exact ⟨diary, rfl⟩

/-- A run comes by a state between any two of its events. -/
theorem split {first more : List Event} (h : SoundRun config s (first ++ more) s') :
    ∃ s₁, SoundRun config s first s₁ ∧ SoundRun config s₁ more s' := by
  induction first generalizing s with
  | nil => exact ⟨s, ⟨h.sound, .nil s s.toDiary⟩, h⟩
  | cons e first ih =>
      obtain ⟨diary, pos, s₁, hTaken, hRest⟩ := uncons h
      obtain ⟨s₂, hFirst, hMore⟩ := ih hRest
      exact ⟨s₂, ⟨h.sound, .cons diary pos hTaken hFirst.ran⟩, hMore⟩

/-- What the events of a run tell, the engine holds after it. -/
theorem told {before : List Event} (h : SoundRun config s events s')
    (hEnd : .endScript ∉ events) (hTold : Told config.directives before s) :
    Told config.directives (before ++ events) s' := by
  induction events generalizing s before with
  | nil =>
      obtain ⟨diary, rfl⟩ := h.eq_of_nil
      rw [List.append_nil]
      exact hTold.of_fields rfl rfl rfl rfl rfl
  | cons e events ih =>
      obtain ⟨hFirst, hMore⟩ := List.ne_and_not_mem_of_not_mem_cons hEnd
      obtain ⟨diary, pos, s₁, hTaken, hRest⟩ := h.uncons
      have hSound : State.Sound { s with toDiary := diary } := h.sound.congr rfl rfl rfl rfl
      have hSelf : Told config.directives before { s with toDiary := diary } :=
        hTold.of_fields rfl rfl rfl rfl rfl
      have hNext := ih hRest hMore (hSelf.take hSound hTaken (Ne.symm hFirst))
      rwa [List.append_assoc, List.singleton_append] at hNext

end SoundRun

theorem Reached.diary {script : List Statement} (h : s.Reached script) (diary : Diary) :
    Reached { s with toDiary := diary } script where
  blocks := h.blocks.of_registries rfl rfl
  cases := h.cases
  main := h.main
  tool := h.tool
  sources := h.sources
  axes := h.axes

/-- What a new engine holds after the statements of a script, told from them and the directives. An
empty tool counts as none, so it may be followed by another one. -/
structure Gathered (config : Config) (script : List Statement) (s : State) : Prop where
  reached : s.Reached script
  told : Told config.directives (openingEvents script) s
  tools : (Script.tools script).filter (· ≠ []) = [s.tool].filter (· ≠ [])
  requests : requests config.directives (openingEvents script) =
    Script.requests config.directives script

namespace Gathered

variable {script : List Statement}

/-- The declared choices are gathered in the order of their declarations, with their labels and
defaults. -/
theorem choices (h : Gathered config script s) :
    s.choices.axes.map Axis.declaration = Script.axes .choice script :=
  h.reached.axes .choice

/-- The labels given to a choice by the events are those of its declaration in the script, which
cannot be added to later. -/
theorem labels (h : Gathered config script s) (choice : Text) :
    labels choice (openingEvents script) = Script.labelsOf script choice := by
  rw [← h.told.labels, Registry.labelsOf, Registry.get?, Script.labelsOf, ← h.choices,
    List.find?_map, Option.map_map]
  rfl

/-- A select statement comes after the declaration of its choice. -/
theorem declared (h : Gathered config script s) :
    ∀ d ∈ Script.selects script,
      d.choice ∈ (Script.axes .choice script).map AxisDeclaration.name := by
  intro d hd
  obtain ⟨statement, hMem, hStatement⟩ := List.mem_filterMap.mp hd
  have hEvent : .select d.choice d.label ∈ statement.events := by
    cases statement with
    | select choice label =>
        cases hStatement
        exact List.mem_singleton_self _
    | every choice =>
        cases hStatement
        exact List.mem_singleton_self _
    | _ => cases hStatement
  have hOpening : .select d.choice d.label ∈ openingEvents script :=
    List.mem_cons_of_mem _ (List.mem_flatMap_of_mem hMem hEvent)
  have hSelects : selects d.choice (openingEvents script) = true :=
    List.any_eq_true.mpr ⟨_, hOpening, beq_self_eq_true _⟩
  rw [← h.choices, List.map_map]
  exact h.told.selects d.choice hSelects

/-- What a statement asks for. -/
theorem requestsAfter_statement (h : Gathered config script s) (statement : Statement) :
    requestsAfter config.directives (openingEvents script) statement.events =
      ((Script.selects [statement]).filter fun d =>
        !config.directives.any (·.choice == d.choice)).flatMap
          (Script.expansion (script ++ [statement])) := by
  have hSelect : ∀ choice label, Script.axes .choice [statement] = [] →
      requestsAfter config.directives (openingEvents script) [.select choice label] =
        ([Directive.mk choice label].filter fun d =>
          !config.directives.any (·.choice == d.choice)).flatMap
            (Script.expansion (script ++ [statement])) := by
    intro choice label hAxes
    -- A declaration is one statement, so the choice has all the labels it will ever have.
    have hLabels : Script.labelsOf (script ++ [statement]) choice =
        Script.labelsOf script choice := by
      rw [Script.labelsOf, Script.axes_append, hAxes, List.append_nil, Script.labelsOf]
    rw [requestsAfter, requestsAfter, request, h.labels, List.append_nil]
    by_cases hNamed : config.directives.any (·.choice == choice) = true
    · simp [hNamed]
    · simp [hNamed, Script.expansion, hLabels]
  cases statement with
  | select choice label => exact hSelect choice label rfl
  | every choice => exact hSelect choice allLabels rfl
  | _ => exact requestsAfter_describing (Statement.describes_events fun hSort => by cases hSort) _ _

/-- A tool is set where there was none. -/
theorem tools_statement {statement : Statement} (h : Gathered config script s)
    (hRun : SoundRun config s statement.events s') (hReached : s'.Reached (script ++ [statement])) :
    (Script.tools (script ++ [statement])).filter (· ≠ []) = [s'.tool].filter (· ≠ []) := by
  have hTool := hReached.tool
  rw [Script.tools_append] at hTool ⊢
  by_cases hSort : statement.sort = .tool
  · cases statement with
    | tool name =>
        obtain ⟨diary, pos, s₁, hTaken, hRest⟩ := hRun.uncons
        obtain ⟨hNone, diary', rfl⟩ := setTool_eq_none hTaken
        obtain ⟨_, rfl⟩ := hRest.eq_of_nil
        have hUnset : s.tool = [] := hNone
        rw [List.filter_append, h.tools, hUnset]
        rfl
    | _ => cases hSort
  · have hNone : Script.tools [statement] = [] := by
      cases statement with
      | tool name => exact absurd rfl hSort
      | _ => rfl
    rw [hNone, List.append_nil] at hTool ⊢
    rw [h.tools, hTool, ← h.reached.tool]

/-- One statement more. -/
theorem statement {statement : Statement} (h : Gathered config script s)
    (hRun : SoundRun config s statement.events s') :
    Gathered config (script ++ [statement]) s' := by
  have hReached : s'.Reached (script ++ [statement]) := by
    have hWhole : SoundRun config s (statement.events ++ []) s' := by
      rwa [List.append_nil]
    -- What is reached is known up to the diary only.
    obtain ⟨s₁, hRest, hReached⟩ := h.reached.statement hWhole
    obtain ⟨diary, rfl⟩ := hRest.eq_of_nil
    exact hReached.diary diary
  refine ⟨hReached, ?_, h.tools_statement hRun hReached, ?_⟩
  · rw [openingEvents_append]
    exact hRun.told statement.endScript_notMem_events h.told
  · rw [openingEvents_append, History.requests, requestsAfter_append, List.nil_append,
      h.requestsAfter_statement, Script.requests_append _ h.declared]
    exact congrArg (· ++ _) h.requests

/-- All statements of a script, one after another. -/
theorem statements {more : List Statement} {events : List Event} (h : Gathered config script s)
    (hRun : SoundRun config s (more.flatMap Statement.events ++ events) s') :
    ∃ s₁, Gathered config (script ++ more) s₁ ∧ SoundRun config s₁ events s' := by
  induction more generalizing s script with
  | nil => exact ⟨s, (List.append_nil script).symm ▸ h, hRun⟩
  | cons statement more ih =>
      rw [List.flatMap_cons, List.append_assoc] at hRun
      obtain ⟨s₁, hFirst, hMore⟩ := hRun.split
      obtain ⟨s₂, hGathered, hRest⟩ := ih (h.statement hFirst) hMore
      refine ⟨s₂, ?_, hRest⟩
      rwa [List.append_assoc, List.singleton_append] at hGathered

/-- Everything that is asked for is read off the tree. -/
theorem asked (h : Gathered config script s) :
    History.asked config.directives (openingEvents script) =
      Script.asked config.directives script := by
  rw [History.asked, Script.asked, h.requests]
  refine congrArg (_ ++ ·) (List.flatMap_congr fun d _ => ?_)
  rw [h.labels, Script.expansion]

/-- The selections that are left at the end. -/
theorem selections (h : Gathered config script s) (hRun : SoundRun config s [.endScript] s') :
    s'.selections = Script.selections config.directives script := by
  obtain ⟨diary, pos, s₁, hTaken, hRest⟩ := hRun.uncons
  obtain ⟨_, rfl⟩ := hRest.eq_of_nil
  have hSound : State.Sound { s with toDiary := diary } := hRun.sound.congr rfl rfl rfl rfl
  have hTold : Told config.directives (openingEvents script) { s with toDiary := diary } :=
    h.told.of_fields rfl rfl rfl rfl rfl
  obtain ⟨-, r₁, r₂, _, hApply, hResolve, hChoices, hSelections⟩ := endScript_selections hTaken
  have hAxes : r₂.choices.axes.map Axis.declaration = Script.axes .choice script := by
    obtain ⟨-, -, r, _, _, _, hSame, -, -, -, rfl⟩ := endScript_eq_none hTaken
    rw [← hChoices]
    exact (hSame.map_eq Axis.declaration fun _ => rfl).trans h.choices
  obtain ⟨-, hRequested, hDefault⟩ := resolve_default hResolve
  rw [(hTold.directed hSound hApply).1, h.asked] at hRequested hDefault
  simp only [ne_eq, eraseDups_eq_nil_iff] at hRequested hDefault
  change s₁.selections = _
  rw [hSelections, Script.selections, ← hAxes]
  by_cases hAsked : Script.asked config.directives script = []
  · obtain ⟨hOne, hOther, -⟩ := hDefault hAsked
    rw [if_neg (not_not_intro hAsked)]
    rcases hMade : r₂.choices.axes with _ | ⟨a, _ | ⟨b, more⟩⟩
    · exact hOther (by simp [hMade])
    · obtain ⟨l, hLabel, hSelected⟩ := hOne a hMade
      rw [Axis.defaultLabel?] at hLabel
      split at hLabel
      · cases hLabel
      · cases hLabel
        exact hSelected
    · exact hOther (by simp [hMade])
  · rw [if_pos hAsked]
    exact hRequested hAsked

/-- The plan at the end, told from the tree and the directives. -/
theorem plan (h : Gathered config script s) (hRun : SoundRun config s [.endScript] s') :
    ∃ tool sources, (Script.tools script).filter (· ≠ []) = [tool] ∧
      Script.resolvedSources config script = some sources ∧
      s'.plan = some ⟨some (Script.commands script tool sources
        (Script.selections config.directives script))⟩ := by
  obtain ⟨tool, sources, hTool, hSources, hPlan⟩ := h.reached.plan hRun
  obtain ⟨diary, pos, s₁, hTaken, -⟩ := hRun.uncons
  obtain ⟨-, hSet, -⟩ := endScript_eq_none hTaken
  have hSame : s.tool = tool := by
    rw [h.reached.tool, hTool]
    rfl
  refine ⟨tool, sources, ?_, hSources, h.selections hRun ▸ hPlan⟩
  rw [h.tools, ← hSame]
  simpa using hSet

end Gathered

/-- A new engine that takes the events of a script comes to its end with the whole script
gathered. -/
theorem gathered_of_handOn {script : List Statement} {emitted : List Emission}
    (hEvents : heard emitted = scriptEvents script)
    (hRun : handOn (receive config) {} emitted = (s, none)) :
    ∃ s₁, Gathered config script s₁ ∧ SoundRun config s₁ [.endScript] s := by
  have hRan : SoundRun config {} (scriptEvents script) s :=
    ⟨sound_empty, hEvents ▸ ran_of_handOn hRun⟩
  have hWhole : SoundRun config {} ([.beginScript] ++ _) s := hRan
  obtain ⟨s₁, hBegin, hMore⟩ := hWhole.split
  obtain ⟨diary, hBegun⟩ := SoundRun.beginScript hBegin
  obtain ⟨diary', rfl⟩ := hBegun.eq_of_nil
  have hTold := hBegin.told (by simp) (.empty config.directives)
  have hStart : Gathered config [] _ := ⟨(reached_begun diary).diary diary', hTold, rfl, rfl⟩
  exact hStart.statements hMore

end State

/-- Statements of different sorts may trade places. Whenever a new engine takes the events of two
scripts to the end, with any places and trace records between them, and one script has the other's
statements with those of each sort in the same order, both end with one and the same plan. -/
theorem plan_of_reordered (config : Config) {script script' : List Statement}
    (hOrder : Script.Reordered script script') {emitted emitted' : List Emission} {s s' : State}
    (hEvents : heard emitted = scriptEvents script)
    (hEvents' : heard emitted' = scriptEvents script')
    (hRun : handOn (State.receive config) {} emitted = (s, none))
    (hRun' : handOn (State.receive config) {} emitted' = (s', none)) :
    ∃ p, s.plan = some p ∧ s'.plan = some p := by
  obtain ⟨s₁, hGathered, hEnding⟩ := State.gathered_of_handOn hEvents hRun
  obtain ⟨s₁', hGathered', hEnding'⟩ := State.gathered_of_handOn hEvents' hRun'
  obtain ⟨tool, sources, hTool, hSources, hPlan⟩ := hGathered.plan hEnding
  obtain ⟨tool', sources', hTool', hSources', hPlan'⟩ := hGathered'.plan hEnding'
  -- Tools may stand in another order, but there is only one that is not empty.
  have hSameTool : tool' = tool := by
    have hPerm := hOrder.tools.filter (· ≠ [])
    rw [hTool, hTool'] at hPerm
    exact (List.singleton_perm_singleton.mp hPerm).symm
  have hSameSources : sources' = sources := by
    rw [← hOrder.resolvedSources, hSources] at hSources'
    exact (Option.some.inj hSources').symm
  refine ⟨_, hPlan, ?_⟩
  rw [hPlan', hSameTool, hSameSources, hOrder.selections, hOrder.commands]

/-- The nested script with its tool at the end and its case statement after what is selected. -/
def lateScript : List Statement :=
  [.source "s", .axis .choice "c" "a" ["b"] none, .axis .choice "d" "e" [] none,
    .option "-v" none, .select "c" "a", .every "d",
    .case "c" (.cons "a" [] (.option "-x" (some "1") (.case "d" (.last "e" [] (.option "-y" none
      .nil)) .nil)) (.last "b" [] .nil)),
    .tool "t"]

/-- The tool statement has moved to the end and the select statements before the case statement.
Within every sort the order is the same. -/
theorem reordered_lateScript : Script.Reordered nestedScript lateScript := by
  constructor
  · have hTool : ([Statement.tool "t"] ++ nestedScript.tail).Perm
        (nestedScript.tail ++ [.tool "t"]) :=
      List.perm_append_comm
    have hCase : ((nestedScript.drop 5).take 1 ++ nestedScript.drop 6).Perm
        (nestedScript.drop 6 ++ (nestedScript.drop 5).take 1) := List.perm_append_comm
    have hTail := hCase.append_left ((nestedScript.drop 1).take 4)
    exact hTool.trans (hTail.append_right [Statement.tool "t"])
  · intro sort hSort
    cases sort with
    | tool => exact absurd rfl hSort
    | axis kind => cases kind <;> rfl
    | _ => rfl

/-- A script that names its tool last and selects before its case statement makes the same plan. -/
theorem plan_of_reordered_lateScript :
    ∃ s s' p, Script.Reordered nestedScript lateScript ∧
      handOn (State.receive {}) {} ((scriptEvents nestedScript).map (.event · .none)) = (s, none) ∧
      handOn (State.receive {}) {} ((scriptEvents lateScript).map (.event · .none)) = (s', none) ∧
      s.plan = some p ∧ s'.plan = some p := by
  have hRun : ∃ s, handOn (State.receive {}) {}
      ((scriptEvents nestedScript).map (.event · .none)) = (s, none) := ⟨_, rfl⟩
  have hRun' : ∃ s', handOn (State.receive {}) {}
      ((scriptEvents lateScript).map (.event · .none)) = (s', none) := ⟨_, rfl⟩
  obtain ⟨s, hRun⟩ := hRun
  obtain ⟨s', hRun'⟩ := hRun'
  obtain ⟨p, hPlan, hPlan'⟩ := plan_of_reordered {} reordered_lateScript rfl rfl hRun hRun'
  exact ⟨s, s', p, reordered_lateScript, hRun, hRun', hPlan, hPlan'⟩

end Runsheet
