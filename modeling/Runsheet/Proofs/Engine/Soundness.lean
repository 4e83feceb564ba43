import Runsheet.Proofs.Engine.Ending

/-! The data of the engine stay sound over every event that is taken, in any order of calls: names
are declared once, labels of an open case statement are labels of its subject, and the two copies
of the selections agree. -/
namespace Runsheet

/-- What holds of an open case statement over its subject. -/
structure CaseCheck.Sound (c : CaseCheck) (subject : Axis) : Prop where
  used_mem : ∀ l ∈ c.used, l ∈ subject.labels
  current_used : ∀ l ∈ c.current, l ∈ c.used
  current_nodup : c.current.Nodup

/-- A check stays sound when its subject gains labels: those used so far are still among them. -/
theorem CaseCheck.Sound.mono {c : CaseCheck} {a b : Axis} (h : c.Sound a) (hab : a.Extends b) :
    c.Sound b :=
  { h with used_mem := fun l hl => hab.labels l (h.used_mem l hl) }

namespace State

/-- What holds of the registries, the open case statements and the selections of an engine. -/
structure Sound (s : State) : Prop where
  resolver : s.toResolver.Sound
  inputs : s.inputs.Sound .input
  disjoint : ∀ name ∈ s.choices.names, name ∉ s.inputs.names
  cases : ∀ c ∈ s.cases, ∃ a, (s.registry c.kind).get? c.subject = some a ∧ c.Sound a

/-- Nothing is declared, open or selected in a new engine. -/
theorem sound_empty : Sound {} where
  resolver := ⟨⟨rfl, List.nodup_nil, by simp⟩, by simp, by simp, List.nodup_nil⟩
  inputs := ⟨rfl, List.nodup_nil, by simp⟩
  disjoint := by simp [Registry.names]
  cases := by simp

variable {config : Config} {s s' : State} {pos : Pos} {kind : AxisKind} {name label : Text}

namespace Sound

/-- Both registries are sound, each with its own sort. -/
theorem registry (h : s.Sound) (kind : AxisKind) : (s.registry kind).Sound kind := by
  cases kind with
  | choice => exact h.resolver.choices
  | input => exact h.inputs

/-- Only the registries, the selections and the open case statements matter. -/
theorem congr (h : s.Sound) (hChoices : s'.choices = s.choices)
    (hSelections : s'.selections = s.selections) (hInputs : s'.inputs = s.inputs)
    (hCases : s'.cases = s.cases) : s'.Sound where
  resolver := h.resolver.congr hChoices hSelections
  inputs := hInputs ▸ h.inputs
  disjoint := by
    rw [hChoices, hInputs]
    exact h.disjoint
  cases := by
    have hRegistry (kind : AxisKind) : s'.registry kind = s.registry kind := by
      cases kind with
      | choice => exact hChoices
      | input => exact hInputs
    intro c hc
    rw [hRegistry]
    exact h.cases c (hCases ▸ hc)

/-- The subject of an open case statement is found where the engine looks for it. -/
theorem subjectOf {c : CaseCheck} (h : s.Sound) (hc : c ∈ s.cases) :
    (s.registry c.kind).get? c.subject = some (s.subjectOf c) ∧ c.Sound (s.subjectOf c) := by
  obtain ⟨a, ha, hSound⟩ := h.cases c hc
  have hSubject : s.subjectOf c = a := by simp [State.subjectOf, ha]
  exact hSubject.symm ▸ ⟨ha, hSound⟩

/-- The subject of an open case statement is itself sound. -/
theorem sound_subjectOf {c : CaseCheck} (h : s.Sound) (hc : c ∈ s.cases) : (s.subjectOf c).Sound :=
  ((h.registry c.kind).of_get? (h.subjectOf hc).1).2.2

/-- Every label of an alternative has a block to be enriched. -/
theorem absorb_eq_none {c : CaseCheck} (h : s.Sound) (hc : c ∈ s.cases) (block : Block) :
    ((s.subjectOf c).blocks.absorb block c.current).2 = none := by
  obtain ⟨-, hCase⟩ := h.subjectOf hc
  rw [Shelf.absorb_eq_none_iff, (h.sound_subjectOf hc).blocks_labels]
  exact fun l hl => hCase.used_mem l (hCase.current_used l hl)

/-- Another list of open case statements over declared subjects. -/
theorem withCases (h : s.Sound) (cs : List CaseCheck)
    (hCases : ∀ c ∈ cs, ∃ a, (s.registry c.kind).get? c.subject = some a ∧ c.Sound a) :
    Sound { s with cases := cs } where
  resolver := h.resolver
  inputs := h.inputs
  disjoint := h.disjoint
  cases := hCases

/-- A name stands in one of the two registries at most. Case statements rely on this to find their
subject again. -/
theorem disjoint_other (h : s.Sound) (hName : name ∈ (s.registry kind).names) :
    name ∉ (s.otherRegistry kind).names := by
  cases kind with
  | choice => exact h.disjoint name hName
  | input => exact fun hOther => h.disjoint name hOther hName

/-- The subject of an open case statement is still there when a registry is extended; over the
other sort it is where it was. -/
theorem case_subjects {r : Registry} (h : s.Sound) (kind : AxisKind)
    (hExtends : Registry.Extends (s.registry kind) r) :
    ∀ c ∈ s.cases, ∃ a,
      ((s.setRegistry kind r).registry c.kind).get? c.subject = some a ∧ c.Sound a := by
  intro c hc
  obtain ⟨a, ha, hCase⟩ := h.cases c hc
  by_cases hKind : c.kind = kind
  · subst hKind
    obtain ⟨b, hb, hab⟩ := hExtends _ a ha
    refine ⟨b, ?_, hCase.mono hab⟩
    cases hSort : c.kind <;> simpa [State.registry, State.setRegistry, hSort] using hb
  · refine ⟨a, ?_, hCase⟩
    cases hSort : c.kind <;> cases kind <;> simp_all [State.registry, State.setRegistry]

/-- Another registry in place of one that it extends, under names that stay apart from those of
the other sort. -/
theorem setRegistry {r : Registry} (h : s.Sound)
    (hResolver : kind = .choice → Resolver.Sound { s.toResolver with choices := r })
    (hr : r.Sound kind) (hExtends : Registry.Extends (s.registry kind) r)
    (hNames : ∀ n ∈ r.names, n ∉ (s.otherRegistry kind).names) : (s.setRegistry kind r).Sound := by
  have hCases := h.case_subjects kind hExtends
  cases kind with
  | choice => exact ⟨hResolver rfl, h.inputs, hNames, hCases⟩
  | input => exact ⟨h.resolver, hr, fun n hn hn' => hNames n hn' hn, hCases⟩

/-- An update of one axis that keeps its labels and selections. -/
theorem modify {f : Axis → Axis} (h : s.Sound) (kind : AxisKind) (name : Text)
    (hf : ∀ a, Axis.Extends a (f a))
    (hSelected : ∀ a, (f a).selected = a.selected)
    (hSound : ∀ a, (s.registry kind).get? name = some a → a.Sound → (f a).Sound) :
    (s.setRegistry kind ((s.registry kind).modify name f)).Sound := by
  have hAxes : ∀ a ∈ (s.registry kind).axes, a.name = name → a.Sound → (f a).Sound := by
    intro a ha hName
    exact hSound a (hName ▸ Registry.get?_of_mem (h.registry kind).names_nodup ha)
  apply h.setRegistry
  · rintro rfl
    exact h.resolver.modify hf hSelected hAxes
  · exact (h.registry kind).modify hf hAxes
  · exact Registry.extends_modify _ name hf
  · intro n hn
    rw [Registry.names_modify _ _ fun a => (hf a).name] at hn
    exact h.disjoint_other hn

/-- A new axis under a name that neither registry has. -/
theorem append {a : Axis} (h : s.Sound) (kind : AxisKind) (hKind : a.kind = kind)
    (hNew : a.name ∉ (s.registry kind).names) (hOther : a.name ∉ (s.otherRegistry kind).names)
    (ha : a.Sound) (hSelected : a.selected = []) :
    (s.setRegistry kind ((s.registry kind).append a)).Sound := by
  apply h.setRegistry
  · rintro rfl
    exact h.resolver.append hNew hKind ha hSelected
  · exact (h.registry kind).append hNew hKind ha
  · exact Registry.extends_append _ a
  · intro n hn
    rw [Registry.names_append, List.mem_append] at hn
    rcases hn with hOld | hLast
    · exact h.disjoint_other hOld
    · rw [List.mem_singleton.mp hLast]
      exact hOther

/-- Other selections, which leave the choices as they are. -/
theorem withResolver {r : Resolver} (h : s.Sound) (hr : r.Sound)
    (hSame : s.choices.SameButSelected r.choices) : Sound { s with toResolver := r } where
  resolver := hr
  inputs := h.inputs
  disjoint := by
    rw [hSame.names_eq]
    exact h.disjoint
  cases := h.case_subjects .choice hSame.toExtends

/-- An axis is of the sort of the registry in which it is found. -/
theorem get?_of_axis? {a : Axis} (h : s.Sound) (ha : s.axis? name = some a) :
    (s.registry a.kind).get? name = some a := by
  rw [axis?] at ha
  cases hChoice : s.choices.get? name with
  | some b =>
      rw [hChoice] at ha
      cases ha
      rw [(h.resolver.choices.of_get? hChoice).2.1]
      exact hChoice
  | none =>
      rw [hChoice] at ha
      have hInput : s.inputs.get? name = some a := ha
      rw [(h.inputs.of_get? hInput).2.1]
      exact hInput

section events

/-- The name is free in both registries, so that the new axis neither hides another one nor is
hidden. -/
theorem declare (h : s.Sound) (hDeclare : s.declare kind name pos = (s', none)) : s'.Sound := by
  obtain ⟨hOther, hNew, diary, rfl⟩ := declare_eq_none hDeclare
  have hKind : (s.registry kind).kind = kind := (h.registry kind).kind_eq
  refine Sound.congr (h.append kind hKind (Registry.get?_eq_none_iff.mp hNew)
    (Registry.get?_eq_none_iff.mp hOther) (Axis.sound_new _ _ pos) rfl) ?_ ?_ ?_ ?_
  all_goals rfl

/-- The checks before a label is added are what a sound axis asks of its labels. That it has no
block yet means that it is new. -/
theorem addLabel (h : s.Sound) (hAdd : s.addLabel kind name label pos = (s', none)) : s'.Sound := by
  obtain ⟨a, diary, ha, hReserved, hNew, rfl⟩ := addLabel_eq_none hAdd
  refine Sound.congr (h.modify kind name (f := (·.addBranch label)) ?_ ?_ ?_)
    rfl rfl rfl rfl
  · refine fun b => ⟨rfl, rfl, fun l hl => ?_⟩
    rw [Axis.labels_addBranch]
    exact List.mem_append_left _ hl
  · exact fun _ => rfl
  · intro b hb hSound
    rw [ha] at hb
    cases hb
    exact hSound.addBranch hReserved ((hSound.hasLabel_eq_false_iff label).mp hNew)

/-- The default is set to a label that has a block, which in a sound axis is a declared one. -/
theorem setDefault (h : s.Sound) (hSet : s.setDefault kind name label pos = (s', none)) : s'.Sound := by
  obtain ⟨a, diary, ha, hLabel, rfl⟩ := setDefault_eq_none hSet
  refine Sound.congr (h.modify kind name (f := ({ · with default := label })) ?_ ?_ ?_)
    rfl rfl rfl rfl
  · exact fun b => ⟨rfl, rfl, fun l hl => hl⟩
  · exact fun _ => rfl
  · intro b hb hSound
    rw [ha] at hb
    cases hb
    exact { hSound with default_mem := Or.inr ((hSound.hasLabel_iff label).mp hLabel) }

/-- A new check has used no label yet, and its subject is found in the registry of its sort. -/
theorem beginCase (h : s.Sound) (hCase : s.beginCase name pos = (s', none)) : s'.Sound := by
  obtain ⟨a, diary, ha, rfl⟩ := beginCase_eq_none hCase
  have hMarked := h.modify a.kind name
    (f := ({ · with usedInCase := true })) (fun _ => ⟨rfl, rfl, fun _ hl => hl⟩) (fun _ => rfl)
    (fun _ _ hb =>
      ⟨hb.labels_nodup, hb.blocks_labels, hb.not_reserved, hb.default_mem, hb.selected_mem⟩)
  have hGet := h.get?_of_axis? ha
  refine Sound.congr (hMarked.withCases (.start a pos :: s.cases) ?_) rfl rfl rfl rfl
  intro c hc
  rcases List.mem_cons.mp hc with rfl | hOld
  · refine ⟨{ a with usedInCase := true }, ?_, by simp [CaseCheck.start], by simp [CaseCheck.start],
      List.nodup_nil⟩
    have hModify := Registry.get?_modify (s.registry a.kind) name
      (f := ({ · with usedInCase := true })) (fun _ => rfl) a.name
    rw [CaseCheck.start, registry_setRegistry, hModify]
    simp [(Registry.get?_eq_some hGet).2, hGet]
  · exact hMarked.cases c (by rwa [cases_setRegistry])

/-- The innermost case statement replaced by one over the same subject. -/
theorem withCurrent {c : CaseCheck} {cs : List CaseCheck} (h : s.Sound) (c' : CaseCheck)
    (hCases : s.cases = c :: cs) (hKind : c'.kind = c.kind) (hSubject : c'.subject = c.subject)
    (hSound : c.Sound (s.subjectOf c) → c'.Sound (s.subjectOf c)) :
    Sound { s with cases := c' :: cs } := by
  have hMem : c ∈ s.cases := hCases ▸ List.mem_cons_self
  obtain ⟨hGet, hCase⟩ := h.subjectOf hMem
  apply h.withCases
  intro d hd
  rcases List.mem_cons.mp hd with rfl | hOld
  · exact ⟨s.subjectOf c, by rw [hKind, hSubject]; exact hGet, hSound hCase⟩
  · exact h.cases d (hCases ▸ List.mem_cons_of_mem _ hOld)

/-- Opening an alternative changes nothing that the invariant speaks of but the labels of the
alternative, of which there are none. -/
theorem beginAlternative (h : s.Sound) (hBegin : s.beginAlternative = (s', none)) : s'.Sound := by
  obtain ⟨c, cs, diary, hCases, _, _, rfl⟩ := beginAlternative_eq_none hBegin
  refine Sound.congr (h.withCurrent
    { c with current := [], inAlternative := true } hCases rfl rfl ?_) rfl rfl rfl rfl
  exact fun hCase => ⟨hCase.used_mem, by simp, List.nodup_nil⟩

/-- The label is one of the subject's and was not used before, which keeps the used labels different
from each other. -/
theorem addAlternativeLabel (h : s.Sound) (hAdd : s.addAlternativeLabel label pos = (s', none)) :
    s'.Sound := by
  obtain ⟨c, cs, diary, hCases, _, hHas, hNew, rfl⟩ := addAlternativeLabel_eq_none hAdd
  have hLabel := ((h.sound_subjectOf (hCases ▸ List.mem_cons_self)).hasLabel_iff label).mp hHas
  refine Sound.congr (h.withCurrent
    { c with used := c.used ++ [label], current := c.current ++ [label] } hCases rfl rfl ?_)
    rfl rfl rfl rfl
  intro hCase
  constructor
  · intro l hl
    rcases List.mem_append.mp hl with hOld | hLast
    · exact hCase.used_mem l hOld
    · rw [List.mem_singleton.mp hLast]
      exact hLabel
  · intro l hl
    rcases List.mem_append.mp hl with hOld | hLast
    · exact List.mem_append_left _ (hCase.current_used l hOld)
    · exact List.mem_append_right _ hLast
  · refine List.nodup_append.mpr ⟨hCase.current_nodup, List.nodup_singleton _, ?_⟩
    intro l hl m hm hlm
    rw [List.mem_singleton.mp hm] at hlm
    exact hNew (hlm ▸ hCase.current_used l hl)

/-- The switches go to labels of the subject, and enriching blocks keeps every axis sound. -/
theorem endAlternative (h : s.Sound) (hEnd : s.endAlternative = (s', none)) : s'.Sound := by
  obtain ⟨c, cs, b, b', bs, diary, hCases, _, _, _, rfl⟩ := endAlternative_eq_none hEnd
  have hEnriched := h.modify c.kind c.subject
    (f := (·.enrich c.current b))
    (fun a => ⟨rfl, rfl, fun l hl => by rw [Axis.labels_enrich]; exact hl⟩) (fun _ => rfl)
    (fun _ _ ha => ha.enrich _ _)
  exact Sound.congr (hEnriched.withCurrent (c := c) { c with inAlternative := false }
    (by rw [cases_setRegistry, hCases]) rfl rfl
    fun hCase => ⟨hCase.used_mem, hCase.current_used, hCase.current_nodup⟩) rfl rfl rfl rfl

/-- With one open statement fewer there is less to be kept. -/
theorem endCase (h : s.Sound) (hEnd : s.endCase pos = (s', none)) : s'.Sound := by
  obtain ⟨c, cs, diary, hCases, _, _, _, rfl⟩ := endCase_eq_none hEnd
  refine Sound.congr (h.withCases cs ?_) rfl rfl rfl rfl
  intro d hd
  exact h.cases d (hCases ▸ List.mem_cons_of_mem _ hd)

end events

/-- Every event that is taken keeps the data sound. -/
theorem take {e : Event} (h : s.Sound) (hTake : s.take config e pos = (s', none)) : s'.Sound := by
  cases e with
  | beginScript =>
      obtain ⟨_, diary, rfl⟩ := beginScript_eq_none hTake
      exact h.congr rfl rfl rfl rfl
  | setTool name =>
      obtain ⟨_, diary, rfl⟩ := setTool_eq_none hTake
      exact h.congr rfl rfl rfl rfl
  | addSource name =>
      obtain ⟨diary, hSource⟩ := addSource_eq s name pos
      simp only [State.take, hSource, Prod.mk.injEq, and_true] at hTake
      subst hTake
      exact h.congr rfl rfl rfl rfl
  | addSwitch switch =>
      obtain ⟨_, _, diary, _, rfl⟩ := addSwitch_eq_none hTake
      exact h.congr rfl rfl rfl rfl
  | declare kind name => exact h.declare hTake
  | addLabel kind name label => exact h.addLabel hTake
  | setDefault kind name label => exact h.setDefault hTake
  | beginCase subject => exact h.beginCase hTake
  | beginAlternative => exact h.beginAlternative hTake
  | addAlternativeLabel label => exact h.addAlternativeLabel hTake
  | endAlternative => exact h.endAlternative hTake
  | endCase => exact h.endCase hTake
  | select choice label =>
      obtain ⟨r, hSelect, rfl⟩ := select_eq_none hTake
      obtain ⟨hSame, hSound⟩ := Resolver.selectInScript_spec hSelect
      exact h.withResolver (hSound h.resolver) hSame
  | endScript =>
      obtain ⟨_, _, r, _, _, diary, hSame, hSound, _, _, rfl⟩ := endScript_eq_none hTake
      exact (h.withResolver (hSound h.resolver) hSame).congr rfl rfl rfl rfl

end Sound

end State

end Runsheet
