import Runsheet.Proofs.Engine.Soundness
import Runsheet.Proofs.Script.Acting
import Runsheet.Proofs.Script.Reads

/-! Runs of the engine in which every event is taken. Places and trace records leave no mark but in
the diary, so a run is told by its events alone, and each event is undone by one lemma. -/
namespace Runsheet

namespace State

variable {config : Config} {s s' : State} {events : List Event}

/-- The engine takes the events one after another. Before each of them the diary may have grown. -/
inductive Ran (config : Config) : State → List Event → State → Prop
  | nil (s : State) (diary : Diary) : Ran config s [] { s with toDiary := diary }
  | cons {s s₁ s' : State} {e : Event} {events : List Event} (diary : Diary) (pos : Pos)
      (taken : State.take config { s with toDiary := diary } e pos = (s₁, none))
      (rest : Ran config s₁ events s') : Ran config s (e :: events) s'

/-- What was told before a run started makes no difference to the run. -/
theorem Ran.diary {diary : Diary} (h : Ran config { s with toDiary := diary } events s') :
    Ran config s events s' := by
  cases h with
  | nil _ diary' => exact Ran.nil s diary'
  | cons diary' pos taken rest => exact Ran.cons diary' pos taken rest

/-- Reports that are handed on without a refusal are a run of their events. -/
theorem ran_of_handOn {emitted : List Emission}
    (h : handOn (receive config) s emitted = (s', none)) : Ran config s (heard emitted) s' := by
  induction emitted generalizing s with
  | nil =>
      cases h
      exact Ran.nil s' s'.toDiary
  | cons emission emitted ih =>
      cases emission with
      | note record => exact (ih h).diary
      | event e pos =>
          rw [handOn, receive, step] at h
          cases hTake : s.take config e pos with
          | mk s₁ failure =>
              rw [hTake] at h
              cases failure with
              | none => exact Ran.cons s.toDiary pos hTake (ih h)
              | some f => cases h

/-- A run from sound data. -/
structure SoundRun (config : Config) (s : State) (events : List Event) (s' : State) : Prop where
  sound : s.Sound
  ran : Ran config s events s'

namespace SoundRun

variable {kind : AxisKind} {name label : Text}

/-- One event of a run, and the run after it. -/
theorem uncons {e : Event} (h : SoundRun config s (e :: events) s') :
    ∃ diary pos s₁, State.take config { s with toDiary := diary } e pos = (s₁, none) ∧
      SoundRun config s₁ events s' := by
  obtain ⟨hSound, hRan⟩ := h
  cases hRan with
  | cons diary pos taken rest =>
      have hDiary : State.Sound { s with toDiary := diary } := hSound.congr rfl rfl rfl rfl
      exact ⟨diary, pos, _, taken, hDiary.take taken, rest⟩

/-- In a run that goes on, the beginning of the script finds no open block and leaves the main block
alone on the stack. -/
theorem beginScript (h : SoundRun config s (.beginScript :: events) s') :
    ∃ diary, SoundRun config { s with scopes := ⟨[{ name := "main" }]⟩, toDiary := diary }
      events s' := by
  obtain ⟨diary, pos, s₁, taken, hRest⟩ := h.uncons
  obtain ⟨_, diary', rfl⟩ := beginScript_eq_none taken
  exact ⟨diary', hRest⟩

/-- A tool statement that is taken sets name and place of the tool, and nothing else but the diary.
-/
theorem setTool (h : SoundRun config s (.setTool name :: events) s') :
    ∃ pos diary, SoundRun config { s with tool := name, toolPos := pos, toDiary := diary }
      events s' := by
  obtain ⟨diary, pos, s₁, taken, hRest⟩ := h.uncons
  obtain ⟨_, diary', rfl⟩ := setTool_eq_none taken
  exact ⟨pos, diary', hRest⟩

theorem addSource (h : SoundRun config s (.addSource name :: events) s') :
    ∃ diary, SoundRun config { s with sources := s.sources ++ [name], toDiary := diary }
      events s' := by
  obtain ⟨diary, pos, s₁, taken, hRest⟩ := h.uncons
  obtain ⟨diary', hEq⟩ := addSource_eq { s with toDiary := diary } name pos
  cases hEq.symm.trans taken
  exact ⟨diary', hRest⟩

/-- A switch goes to the end of the innermost block, whichever that is. -/
theorem addSwitch {switch : Switch} {b : Block} {bs : List Block}
    (h : SoundRun config s (.addSwitch switch :: events) s') (hBlocks : s.scopes.blocks = b :: bs) :
    ∃ diary, SoundRun config { s with scopes := ⟨b.push switch :: bs⟩, toDiary := diary }
      events s' := by
  obtain ⟨diary, pos, s₁, taken, hRest⟩ := h.uncons
  obtain ⟨b', bs', diary', hBlocks', rfl⟩ := addSwitch_eq_none taken
  obtain ⟨rfl, rfl⟩ := List.cons.inj (hBlocks.symm.trans hBlocks')
  exact ⟨diary', hRest⟩

/-- A declaration that is taken has a name that was free in the registry, where the axis comes last
without labels. -/
theorem declare (h : SoundRun config s (.declare kind name :: events) s') :
    name ∉ (s.registry kind).names ∧ ∃ pos diary,
      SoundRun config { s.setRegistry kind ((s.registry kind).append
          { kind := (s.registry kind).kind, name, declared := pos }) with toDiary := diary }
        events s' := by
  obtain ⟨diary, pos, s₁, taken, hRest⟩ := h.uncons
  obtain ⟨_, hNew, diary', rfl⟩ := declare_eq_none taken
  cases kind with
  | choice => exact ⟨Registry.get?_eq_none_iff.mp hNew, pos, diary', hRest⟩
  | input => exact ⟨Registry.get?_eq_none_iff.mp hNew, pos, diary', hRest⟩

/-- A label that is taken is new in its axis. In a sound engine that a label has no block means that
it is not declared. -/
theorem addLabel (h : SoundRun config s (.addLabel kind name label :: events) s') :
    ∃ a diary, (s.registry kind).get? name = some a ∧ label ∉ a.labels ∧
      SoundRun config { s.setRegistry kind ((s.registry kind).modify name (·.addBranch label)) with
        toDiary := diary } events s' := by
  obtain ⟨diary, pos, s₁, taken, hRest⟩ := h.uncons
  obtain ⟨a, diary', ha, _, hHas, rfl⟩ := addLabel_eq_none taken
  have hDiary : State.Sound { s with toDiary := diary } := h.sound.congr rfl rfl rfl rfl
  have hLabel : label ∉ a.labels :=
    (((hDiary.registry kind).of_get? ha).2.2.hasLabel_eq_false_iff label).mp hHas
  cases kind with
  | choice => exact ⟨a, diary', ha, hLabel, hRest⟩
  | input => exact ⟨a, diary', ha, hLabel, hRest⟩

/-- A default that is taken replaces that of its axis and changes no other axis. -/
theorem setDefault (h : SoundRun config s (.setDefault kind name label :: events) s') :
    ∃ diary, SoundRun config
      { s.setRegistry kind ((s.registry kind).modify name ({ · with default := label })) with
        toDiary := diary } events s' := by
  obtain ⟨diary, pos, s₁, taken, hRest⟩ := h.uncons
  obtain ⟨_, diary', _, _, rfl⟩ := setDefault_eq_none taken
  cases kind with
  | choice => exact ⟨diary', hRest⟩
  | input => exact ⟨diary', hRest⟩

/-- A case statement that is taken is opened as the innermost one and marks its subject as used. -/
theorem beginCase {subject : Text} (h : SoundRun config s (.beginCase subject :: events) s') :
    ∃ c diary, c.subject = subject ∧ SoundRun config
      { s.setRegistry c.kind
          ((s.registry c.kind).modify subject ({ · with usedInCase := true })) with
        cases := c :: s.cases, toDiary := diary } events s' := by
  obtain ⟨diary, pos, s₁, taken, hRest⟩ := h.uncons
  obtain ⟨a, diary', ha, rfl⟩ := beginCase_eq_none taken
  have hDiary : State.Sound { s with toDiary := diary } := h.sound.congr rfl rfl rfl rfl
  have hName : a.name = subject := (Registry.get?_eq_some (hDiary.get?_of_axis? ha)).2
  refine ⟨.start a pos, diary', hName, ?_⟩
  change SoundRun config { s.setRegistry a.kind
      ((s.registry a.kind).modify subject ({ · with usedInCase := true })) with
    cases := .start a pos :: s.cases, toDiary := diary' } events s'
  generalize a.kind = kind at hRest ⊢
  cases kind with
  | choice => exact hRest
  | input => exact hRest

variable {c : CaseCheck} {cs : List CaseCheck}

/-- An alternative that is taken starts without labels and with an empty block of its own, inside of
all that are open. -/
theorem beginAlternative (h : SoundRun config s (.beginAlternative :: events) s')
    (hCases : s.cases = c :: cs) :
    ∃ diary, SoundRun config
      { s with
        cases := { c with current := [], inAlternative := true } :: cs
        scopes := s.scopes.push (c.subject ++ " alternative"), toDiary := diary } events s' := by
  obtain ⟨diary, pos, s₁, taken, hRest⟩ := h.uncons
  obtain ⟨c', cs', diary', hCases', _, _, rfl⟩ :=
    beginAlternative_eq_none taken
  obtain ⟨rfl, rfl⟩ := List.cons.inj (hCases.symm.trans hCases')
  exact ⟨diary', hRest⟩

theorem addAlternativeLabel (h : SoundRun config s (.addAlternativeLabel label :: events) s')
    (hCases : s.cases = c :: cs) :
    ∃ diary, SoundRun config
      { s with
        cases := { c with used := c.used ++ [label], current := c.current ++ [label] } :: cs
        toDiary := diary } events s' := by
  obtain ⟨diary, pos, s₁, taken, hRest⟩ := h.uncons
  obtain ⟨c', cs', diary', hCases', _, _, _, rfl⟩ :=
    addAlternativeLabel_eq_none taken
  obtain ⟨rfl, rfl⟩ := List.cons.inj (hCases.symm.trans hCases')
  exact ⟨diary', hRest⟩

/-- An alternative that is taken gives the switches of its block to each of its labels, and the
block is gone. -/
theorem endAlternative {b : Block} {bs : List Block}
    (h : SoundRun config s (.endAlternative :: events) s') (hCases : s.cases = c :: cs)
    (hBlocks : s.scopes.blocks = b :: bs) :
    ∃ diary, SoundRun config
      { s.setRegistry c.kind ((s.registry c.kind).modify c.subject (·.enrich c.current b)) with
        cases := { c with inAlternative := false } :: cs, scopes := ⟨bs⟩, toDiary := diary }
      events s' := by
  obtain ⟨diary, pos, s₁, taken, hRest⟩ := h.uncons
  obtain ⟨c', cs', b₁, b₂, bs', diary', hCases', _, _, hBlocks', rfl⟩ :=
    endAlternative_eq_none taken
  obtain ⟨rfl, rfl⟩ := List.cons.inj (hCases.symm.trans hCases')
  obtain ⟨rfl, rfl⟩ := List.cons.inj (hBlocks.symm.trans hBlocks')
  refine ⟨diary', ?_⟩
  generalize c.kind = kind at hRest ⊢
  cases kind with
  | choice => exact hRest
  | input => exact hRest

/-- A case statement that is taken leaves the statements around it as they were. -/
theorem endCase (h : SoundRun config s (.endCase :: events) s') (hCases : s.cases = c :: cs) :
    ∃ occurred diary, SoundRun config
      { s with
        cases := cs, caseOccurred := true, choiceCaseOccurred := occurred, toDiary := diary }
      events s' := by
  obtain ⟨diary, pos, s₁, taken, hRest⟩ := h.uncons
  obtain ⟨c', cs', diary', hCases', _, _, _, rfl⟩ := endCase_eq_none taken
  obtain ⟨rfl, rfl⟩ := List.cons.inj (hCases.symm.trans hCases')
  exact ⟨_, diary', hRest⟩

/-- A select statement, taken or passed over, changes selections only, so nothing that later events
look at. -/
theorem select {choice : Text} (h : SoundRun config s (.select choice label :: events) s') :
    ∃ r : Resolver, s.choices.SameButSelected r.choices ∧
      SoundRun config { s with toResolver := r } events s' := by
  obtain ⟨diary, pos, s₁, taken, hRest⟩ := h.uncons
  obtain ⟨r, hSelect, rfl⟩ := select_eq_none taken
  exact ⟨r, (Resolver.selectInScript_spec hSelect).1, hRest⟩

end SoundRun

end State

end Runsheet
