import Runsheet.Selection
import Runsheet.Proofs.Axis

/-! Selections are kept twice, in one list for all choices and with each choice. The two stay in
step, whatever is selected and in whatever order, and selecting changes nothing else of a choice. -/
namespace Runsheet

def Axis.unselected (a : Axis) : Axis := { a with state := .none, selected := [] }

theorem Axis.labels_of_unselected {a b : Axis} (h : b.unselected = a.unselected) :
    b.labels = a.labels := by
  have hLabels := congrArg Axis.labels h
  exact hLabels

/-- Two axes that differ in selections only have the same name, sort and labels, so that each
extends the other. -/
theorem Axis.extends_of_unselected {a b : Axis} (h : b.unselected = a.unselected) :
    a.Extends b where
  name := by
    have hName := congrArg Axis.name h
    exact hName
  kind := by
    have hKind := congrArg Axis.kind h
    exact hKind
  labels := fun l hl => (labels_of_unselected h).symm ▸ hl

/-- An error of some kind at some place. -/
structure Diagnostic.IsErrorAt (d : Diagnostic) (kind : DiagnosticKind) (pos : Pos) : Prop where
  severity_eq : d.severity = .error
  kind_eq : d.kind = kind
  pos_eq : d.pos = pos

/-- An error about a name, for which one of the names there are is suggested. -/
structure Diagnostic.Rejects (d : Diagnostic) (kind : DiagnosticKind) (pos : Pos) (name : Text)
    (names : List Text) : Prop extends d.IsErrorAt kind pos where
  suggestion_eq : d.suggestion = Suggestion.closest name names

namespace Registry

/-- Two registries that differ in selections only. -/
def SameButSelected (r r' : Registry) : Prop :=
  r'.kind = r.kind ∧ r'.axes.map Axis.unselected = r.axes.map Axis.unselected

namespace SameButSelected

variable {r r' r'' : Registry} {name : Text}

theorem refl (r : Registry) : SameButSelected r r := ⟨rfl, rfl⟩

theorem trans (h : SameButSelected r r') (h' : SameButSelected r' r'') : SameButSelected r r'' :=
  ⟨h'.1.trans h.1, h'.2.trans h.2⟩

theorem names_eq (h : SameButSelected r r') : r'.names = r.names := by
  have hNames (q : Registry) : q.names = (q.axes.map Axis.unselected).map Axis.name := by
    simp [names, Axis.unselected]
  rw [hNames, hNames, h.2]

/-- A look-up finds the same in both registries, up to selections, and finds something in one
exactly when it does in the other. -/
theorem get?_eq (h : SameButSelected r r') (name : Text) :
    (r'.get? name).map Axis.unselected = (r.get? name).map Axis.unselected := by
  have hFind (q : Registry) : (q.get? name).map Axis.unselected =
      (q.axes.map Axis.unselected).find? (·.name == name) := by
    rw [List.find?_map]
    rfl
  rw [hFind, hFind, h.2]

/-- What does not depend on selections is the same for the axis with any name. -/
theorem map_get? {β : Type} {g : Axis → β} (h : SameButSelected r r')
    (hg : ∀ a, g a.unselected = g a) (name : Text) :
    (r'.get? name).map g = (r.get? name).map g := by
  have hMap := congrArg (Option.map g) (h.get?_eq name)
  simpa [Function.comp_def, hg] using hMap

theorem get?_some {a : Axis} (h : SameButSelected r r') (ha : r.get? name = some a) :
    ∃ b, r'.get? name = some b ∧ b.unselected = a.unselected := by
  have hMap := h.get?_eq name
  rw [ha, Option.map_some] at hMap
  exact Option.map_eq_some_iff.mp hMap

/-- Registries that differ in selections only extend each other. This carries open case statements
over a selection. -/
theorem toExtends (h : SameButSelected r r') : Registry.Extends r r' := by
  intro name a ha
  obtain ⟨b, hb, hSame⟩ := h.get?_some ha
  exact ⟨b, hb, Axis.extends_of_unselected hSame⟩

theorem modify {f : Axis → Axis} (hf : ∀ a, (f a).unselected = a.unselected) :
    SameButSelected r (r.modify name f) := ⟨rfl, map_modify r name Axis.unselected hf⟩

end SameButSelected

end Registry

namespace Resolver

/-- What holds however selections are made: each choice lists exactly its own part of all
selections, in order, and nothing is selected twice. -/
structure Sound (r : Resolver) : Prop where
  choices : r.choices.Sound .choice
  selected : ∀ a ∈ r.choices.axes,
    a.selected = (r.selections.filter (·.choice == a.name)).map Selection.label
  declared : ∀ s ∈ r.selections, s.choice ∈ r.choices.names
  nodup : r.selections.Nodup

namespace Sound

variable {r : Resolver} {choice label : Text}

/-- A label is marked on its choice exactly when the pair is in the list of all selections.
Selecting keeps the two in step. -/
theorem mem_selected_iff {a : Axis} (h : r.Sound) (ha : a ∈ r.choices.axes) (label : Text) :
    label ∈ a.selected ↔ ⟨a.name, label⟩ ∈ r.selections := by
  rw [h.selected a ha, List.mem_map]
  constructor
  · rintro ⟨⟨c, l⟩, hs, rfl⟩
    obtain ⟨hMem, hName⟩ := List.mem_filter.mp hs
    have hc : c = a.name := by simpa using hName
    exact hc ▸ hMem
  · intro hMem
    exact ⟨⟨a.name, label⟩, List.mem_filter.mpr ⟨hMem, by simp⟩, rfl⟩

/-- The check made before a label is selected may therefore be read off the list of all selections.
-/
theorem isSelected_iff (h : r.Sound) :
    r.isSelected choice label = true ↔ ⟨choice, label⟩ ∈ r.selections := by
  rw [isSelected, Option.any_eq_true_iff_get]
  constructor
  · rintro ⟨hSome, hMem⟩
    obtain ⟨hAxis, hName⟩ := Registry.get?_eq_some (Option.some_get hSome).symm
    have hSelection := (h.mem_selected_iff hAxis label).mp (by simpa using hMem)
    rwa [hName] at hSelection
  · intro hMem
    have hSome := Registry.get?_isSome_iff.mpr (h.declared _ hMem)
    obtain ⟨hAxis, hName⟩ := Registry.get?_eq_some (Option.some_get hSome).symm
    refine ⟨hSome, ?_⟩
    have hSelected := (h.mem_selected_iff hAxis label).mpr (by rwa [hName])
    simpa using hSelected

/-- A selected label is a label of a declared choice. -/
theorem label_declared {s : Selection} (h : r.Sound) (hs : s ∈ r.selections) :
    ∃ a, r.choices.get? s.choice = some a ∧ s.label ∈ a.labels := by
  obtain ⟨a, ha⟩ := Option.isSome_iff_exists.mp (Registry.get?_isSome_iff.mpr (h.declared s hs))
  obtain ⟨hAxis, hName⟩ := Registry.get?_eq_some ha
  have hSelected := (h.mem_selected_iff hAxis s.label).mpr (by rwa [hName])
  exact ⟨a, ha, (h.choices.axes a hAxis).2.selected_mem _ hSelected⟩

/-- Only the choices and the selections matter. -/
theorem congr {r' : Resolver} (h : r.Sound) (hChoices : r'.choices = r.choices)
    (hSelections : r'.selections = r.selections) : r'.Sound := by
  constructor
  · rw [hChoices]
    exact h.choices
  · rw [hChoices, hSelections]
    exact h.selected
  · rw [hChoices, hSelections]
    exact h.declared
  · rw [hSelections]
    exact h.nodup

/-- An update of a choice that keeps its selections. -/
theorem modify {f : Axis → Axis} (h : r.Sound) (hf : ∀ a, Axis.Extends a (f a))
    (hSelected : ∀ a, (f a).selected = a.selected)
    (hSound : ∀ a ∈ r.choices.axes, a.name = choice → a.Sound → (f a).Sound) :
    Sound { r with choices := r.choices.modify choice f } where
  choices := h.choices.modify hf hSound
  selected := by
    intro a ha
    rcases Registry.mem_modify ha with hOld | ⟨b, hb, _, rfl⟩
    · exact h.selected a hOld
    · rw [hSelected, (hf b).name]
      exact h.selected b hb
  declared := by
    intro s hs
    rw [Registry.names_modify _ _ fun a => (hf a).name]
    exact h.declared s hs
  nodup := h.nodup

/-- A new choice has no selections. -/
theorem append {a : Axis} (h : r.Sound) (hNew : a.name ∉ r.choices.names) (hKind : a.kind = .choice)
    (ha : a.Sound) (hSelected : a.selected = []) :
    Sound { r with choices := r.choices.append a } where
  choices := h.choices.append hNew hKind ha
  selected := by
    intro b hb
    rcases List.mem_append.mp hb with hOld | hLast
    · exact h.selected b hOld
    · rw [List.mem_singleton.mp hLast, hSelected, eq_comm, List.map_eq_nil_iff,
        List.filter_eq_nil_iff]
      intro s hs hName
      exact hNew ((by simpa using hName : s.choice = a.name) ▸ h.declared s hs)
  declared := by
    intro s hs
    rw [Registry.names_append]
    exact List.mem_append_left _ (h.declared s hs)
  nodup := h.nodup

end Sound

section steps

variable {r : Resolver} {choice label : Text} {state : SelectionState} {pos : Pos}

theorem add_sameButSelected (r : Resolver) (choice label : Text) :
    r.choices.SameButSelected (r.add choice label).choices :=
  .modify fun _ => rfl

/-- Adding a label of a declared choice that is not selected yet. -/
theorem Sound.add {a : Axis} (h : r.Sound) (ha : r.choices.get? choice = some a)
    (hLabel : label ∈ a.labels) (hNew : ⟨choice, label⟩ ∉ r.selections) :
    (r.add choice label).Sound where
  choices := by
    obtain ⟨hAxis, hName⟩ := Registry.get?_eq_some ha
    apply h.choices.modify
    · exact fun b => ⟨rfl, rfl, fun _ hl => hl⟩
    · intro b hb hbName hbSound
      have hb' := Registry.get?_of_mem h.choices.names_nodup hb
      rw [hbName, ha] at hb'
      cases hb'
      refine { hbSound with selected_mem := ?_ }
      intro l hl
      rcases List.mem_append.mp hl with hOld | hLast
      · exact hbSound.selected_mem l hOld
      · rw [List.mem_singleton.mp hLast]
        exact hLabel
  selected := by
    intro b hb
    simp only [Resolver.add, List.filter_append, List.map_append]
    simp only [Resolver.add, Registry.modify, List.mem_map] at hb
    obtain ⟨c, hc, rfl⟩ := hb
    by_cases hName : c.name = choice
    · simp [hName, h.selected c hc]
    · simp [hName, h.selected c hc, Ne.symm hName]
  declared := by
    intro s hs
    rw [(add_sameButSelected r choice label).names_eq]
    rcases List.mem_append.mp hs with hOld | hLast
    · exact h.declared s hOld
    · rw [List.mem_singleton.mp hLast]
      exact Registry.get?_isSome_iff.mp (by rw [ha]; rfl)
  nodup := by
    refine List.nodup_append.mpr ⟨h.nodup, List.nodup_singleton _, ?_⟩
    intro s hs t ht hst
    rw [List.mem_singleton.mp ht] at hst
    exact hNew (hst ▸ hs)

/-- Selecting a label that is selected already only warns; any other is added to its choice. Either
way nothing but selections changes. -/
theorem pick_sameButSelected (choice : Text) (state : SelectionState) (pos : Pos) (r : Resolver)
    (label : Text) :
    r.choices.SameButSelected (pick choice state pos r label).choices := by
  rw [pick]
  split
  · exact .refl _
  · exact add_sameButSelected _ _ _

/-- A declared label can be selected without harm: it is added to both lists at once, or to neither.
-/
theorem Sound.pick {a : Axis} (h : r.Sound) (ha : r.choices.get? choice = some a)
    (hLabel : label ∈ a.labels) : (pick choice state pos r label).Sound := by
  rw [Resolver.pick]
  split
  · exact h.congr rfl rfl
  · rename_i hSelected
    refine Sound.add (h.congr rfl rfl) (a := a) ha hLabel ?_
    intro hMem
    exact hSelected (h.isSelected_iff.mpr hMem)

theorem foldl_pick_sameButSelected (labels : List Text) (r : Resolver) :
    r.choices.SameButSelected (labels.foldl (pick choice state pos) r).choices := by
  induction labels generalizing r with
  | nil => exact .refl _
  | cons label labels ih => exact (pick_sameButSelected _ _ _ r label).trans (ih _)

/-- The same for labels selected one after the other, as the request for all labels of a choice
does. -/
theorem Sound.foldl_pick {labels : List Text} {a : Axis} (h : r.Sound)
    (ha : r.choices.get? choice = some a) (hLabels : ∀ l ∈ labels, l ∈ a.labels) :
    (labels.foldl (Resolver.pick choice state pos) r).Sound := by
  induction labels generalizing r a with
  | nil => exact h
  | cons label labels ih =>
      obtain ⟨b, hb, hSame⟩ := (pick_sameButSelected choice state pos r label).get?_some ha
      apply ih (h.pick ha (hLabels label List.mem_cons_self)) hb
      intro l hl
      rw [Axis.labels_of_unselected hSame]
      exact hLabels l (List.mem_cons_of_mem _ hl)

/-- A requested label stands for labels of its choice. -/
theorem expand_subset {a : Axis} {labels : List Text} (ha : a.Sound)
    (h : expand a label pos = .ok labels) : ∀ l ∈ labels, l ∈ a.labels := by
  intro l hl
  rw [expand] at h
  split at h
  · cases h
    exact hl
  · split at h
    · cases h
      rename_i hHas
      rw [List.mem_singleton.mp hl]
      exact (ha.hasLabel_iff label).mp hHas
    · cases h

/-- Whether a request succeeds or not, it changes nothing of a choice but its selections, and these
stay in step with the list of all. -/
theorem select_spec {a : Axis} {r' : Resolver} {refusal : Option Diagnostic}
    (ha : r.choices.get? choice = some a) (h : r.select a label state pos = (r', refusal)) :
    r.choices.SameButSelected r'.choices ∧ (r.Sound → r'.Sound) := by
  obtain ⟨hAxis, hName⟩ := Registry.get?_eq_some ha
  rw [select] at h
  split at h
  · cases h
    exact ⟨.refl _, id⟩
  · rename_i labels hLabels
    cases h
    have hMark : r.choices.SameButSelected (r.choices.modify a.name ({ · with state })) :=
      .modify fun _ => rfl
    refine ⟨hMark.trans (foldl_pick_sameButSelected labels _), fun hr => ?_⟩
    obtain ⟨b, hb, hSame⟩ := hMark.get?_some ha
    rw [← hName] at hb
    refine Sound.foldl_pick (a := b) ?_ hb ?_
    · exact hr.modify (fun _ => ⟨rfl, rfl, fun _ hl => hl⟩) (fun _ => rfl)
        fun _ _ _ hc =>
          ⟨hc.labels_nodup, hc.blocks_labels, hc.not_reserved, hc.default_mem, hc.selected_mem⟩
    · intro l hl
      rw [Axis.labels_of_unselected hSame]
      exact expand_subset (hr.choices.axes a hAxis).2 hLabels l hl

/-- The choice that a request names is the one found in the registry. -/
theorem lookup_eq_ok {a : Axis} (h : r.lookup choice pos = .ok a) :
    r.choices.get? choice = some a := by
  rw [lookup] at h
  split at h
  · cases h
    assumption
  · cases h

/-- Whether a select statement is taken, passed over or refused, only selections change, and a sound
resolver stays sound. -/
theorem selectInScript_spec {directives : List Directive} {r' : Resolver}
    {refusal : Option Diagnostic}
    (h : r.selectInScript directives choice label pos = (r', refusal)) :
    r.choices.SameButSelected r'.choices ∧ (r.Sound → r'.Sound) := by
  rw [selectInScript] at h
  split at h
  · cases h
    exact ⟨.refl _, id⟩
  · rename_i a hLookup
    split at h
    · cases h
      exact ⟨.refl _, fun hr => hr.congr rfl rfl⟩
    · exact select_spec (lookup_eq_ok hLookup) h

/-- The same for a directive of the command line, with its warning about a choice that no case
statement uses. -/
theorem applyDirective_spec {d : Directive} {r' : Resolver} {refusal : Option Diagnostic}
    (h : r.applyDirective d = (r', refusal)) :
    r.choices.SameButSelected r'.choices ∧ (r.Sound → r'.Sound) := by
  rw [applyDirective] at h
  split at h
  · cases h
    exact ⟨.refl _, id⟩
  · rename_i a hLookup
    split at h
    · rename_i r'' refusal hSelect
      cases h
      exact select_spec (lookup_eq_ok hLookup) hSelect
    · rename_i r'' hSelect
      obtain ⟨hSame, hSound⟩ := select_spec (lookup_eq_ok hLookup) hSelect
      split at h
      · cases h
        exact ⟨hSame, hSound⟩
      · cases h
        exact ⟨hSame, fun hr => (hSound hr).congr rfl rfl⟩

/-- The directives of the command line, also when one of them fails. -/
theorem applyDirectives_spec (directives : List Directive) (r : Resolver) :
    r.choices.SameButSelected (r.applyDirectives directives).1.choices ∧
      (r.Sound → (r.applyDirectives directives).1.Sound) := by
  induction directives generalizing r with
  | nil => exact ⟨.refl _, id⟩
  | cons d directives ih =>
      rw [applyDirectives]
      split
      · rename_i r' refusal hApply
        exact applyDirective_spec hApply
      · rename_i r' hApply
        obtain ⟨hSame, hSound⟩ := applyDirective_spec hApply
        obtain ⟨hSame', hSound'⟩ := ih r'
        exact ⟨hSame.trans hSame', fun hr => hSound' (hSound hr)⟩

/-- Resolving selects at most the default label of the only choice. -/
theorem resolve_spec (r : Resolver) (occurred : Bool) (pos : Pos) :
    r.choices.SameButSelected (r.resolve occurred pos).1.choices ∧
      (r.Sound → (r.resolve occurred pos).1.Sound) ∧
      ∀ selections, (r.resolve occurred pos).2 = .ok selections →
        selections = (r.resolve occurred pos).1.selections := by
  rw [resolve]
  split
  · exact ⟨.refl _, id, fun _ h => by cases h; rfl⟩
  · rename_i hEmpty
    have hNone : r.selections = [] := by simpa using hEmpty
    split
    · exact ⟨.refl _, id, fun _ h => by cases h; exact hNone.symm⟩
    · rename_i a hAxes
      split
      · exact ⟨.refl _, id, fun _ h => by cases h⟩
      · rename_i label hDefault
        refine ⟨add_sameButSelected _ _ _, fun hr => ?_, fun _ h => by cases h; rfl⟩
        have ha : r.choices.get? a.name = some a :=
          Registry.get?_of_mem hr.choices.names_nodup (hAxes ▸ List.mem_cons_self)
        refine Sound.add (hr.congr rfl rfl) (a := a) ha ?_ ?_
        · have hSound := (hr.choices.axes a (hAxes ▸ List.mem_cons_self)).2
          rw [Axis.defaultLabel?] at hDefault
          split at hDefault
          · cases hDefault
          · rename_i hFilled
            cases hDefault
            exact hSound.default_mem.resolve_left (by simpa using hFilled)
        · change _ ∉ r.selections
          simp [hNone]
    · split
      · exact ⟨.refl _, id, fun _ h => by cases h; exact hNone.symm⟩
      · exact ⟨.refl _, id, fun _ h => by cases h⟩

end steps

section refusals

variable {r r' : Resolver} {choice label : Text} {pos : Pos} {d : Diagnostic}

/-- A choice that cannot be found is not declared, and the refusal offers the nearest of the
declared names. -/
theorem lookup_rejects (h : r.lookup choice pos = .error d) :
    choice ∉ r.choices.names ∧ d.Rejects .unknownChoiceInSelect pos choice r.choices.names := by
  rw [lookup] at h
  split at h
  · cases h
  · rename_i hNone
    cases h
    exact ⟨Registry.get?_eq_none_iff.mp hNone, ⟨rfl, rfl, rfl⟩, rfl⟩

/-- A label is refused when it has no block in its choice and does not stand for all labels. The
refusal offers the nearest of the declared labels. -/
theorem expand_rejects {a : Axis} (h : expand a label pos = .error d) :
    a.hasLabel label = false ∧ d.Rejects .unknownLabelInSelect pos label a.labels := by
  rw [expand] at h
  split at h
  · cases h
  · split at h
    · cases h
    · rename_i hNone
      cases h
      exact ⟨by simpa using hNone, ⟨rfl, rfl, rfl⟩, rfl⟩

/-- A request is refused before anything is selected, marked or told. -/
theorem select_eq_some {a : Axis} {state : SelectionState}
    (h : r.select a label state pos = (r', some d)) :
    r' = r ∧ a.hasLabel label = false ∧ d.Rejects .unknownLabelInSelect pos label a.labels := by
  rw [select] at h
  split at h
  · rename_i hExpand
    cases h
    exact ⟨rfl, expand_rejects hExpand⟩
  · cases h

/-- A request is refused for its choice, or for its label when the choice is declared. -/
def Refuses (r : Resolver) (choice label : Text) (pos : Pos) (d : Diagnostic) : Prop :=
  choice ∉ r.choices.names ∧ d.Rejects .unknownChoiceInSelect pos choice r.choices.names ∨
    ∃ a, r.choices.get? choice = some a ∧ a.hasLabel label = false ∧
      d.Rejects .unknownLabelInSelect pos label a.labels

/-- A select statement is refused before it changes anything. -/
theorem selectInScript_eq_some {directives : List Directive}
    (h : r.selectInScript directives choice label pos = (r', some d)) :
    r' = r ∧ r.Refuses choice label pos d := by
  rw [selectInScript] at h
  split at h
  · rename_i hLookup
    cases h
    exact ⟨rfl, Or.inl (lookup_rejects hLookup)⟩
  · rename_i a hLookup
    split at h
    · cases h
    · obtain ⟨hSame, hRejects⟩ := select_eq_some h
      exact ⟨hSame, Or.inr ⟨a, lookup_eq_ok hLookup, hRejects⟩⟩

/-- So is a directive: the warning that it was not needed comes only when it was obeyed. -/
theorem applyDirective_eq_some {directive : Directive} (h : r.applyDirective directive = (r', some d)) :
    r' = r ∧ r.Refuses directive.choice directive.label .none d := by
  rw [applyDirective] at h
  split at h
  · rename_i hLookup
    cases h
    exact ⟨rfl, Or.inl (lookup_rejects hLookup)⟩
  · rename_i a hLookup
    split at h
    · rename_i hSelect
      cases h
      obtain ⟨hSame, hRejects⟩ := select_eq_some hSelect
      exact ⟨hSame, Or.inr ⟨a, lookup_eq_ok hLookup, hRejects⟩⟩
    · split at h <;> cases h

/-- When the directives fail, one of them is refused. -/
theorem applyDirectives_refuses {directives : List Directive}
    (h : r.applyDirectives directives = (r', some d)) :
    ∃ directive ∈ directives, ∃ r₁ : Resolver,
      r₁.Refuses directive.choice directive.label .none d := by
  induction directives generalizing r with
  | nil => cases h
  | cons directive directives ih =>
      rw [applyDirectives] at h
      split at h
      · rename_i hApply
        cases h
        exact ⟨directive, List.mem_cons_self, r, (applyDirective_eq_some hApply).2⟩
      · obtain ⟨directive', hMem, hRefuses⟩ := ih h
        exact ⟨directive', List.mem_cons_of_mem _ hMem, hRefuses⟩

/-- Selections cannot be resolved for want of a default label, or because no choice is preferred. -/
theorem resolve_refuses {occurred : Bool} (h : r.resolve occurred pos = (r', .error d)) :
    d.severity = .error ∧ d.pos = pos ∧
      (d.kind = .missingDefaultLabel ∨ d.kind = .ambiguousChoice) := by
  rw [resolve] at h
  split at h
  · cases h
  · split at h
    · cases h
    · split at h
      · cases h
        exact ⟨rfl, rfl, Or.inl rfl⟩
      · cases h
    · split at h
      · cases h
      · cases h
        exact ⟨rfl, rfl, Or.inr rfl⟩

end refusals

end Resolver

end Runsheet
