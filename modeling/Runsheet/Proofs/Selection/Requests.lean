import Mathlib.Data.List.Induction
import Runsheet.Proofs.Selection

/-! What a row of requests selects: everything that is asked for, once and in the order in which it
is asked for first. How a choice came by its selections is told by the last request for it. -/
namespace Runsheet

/-- What a request for a label of a choice stands for, given the labels that the choice has. -/
def Selection.expansion (labels : List Text) (choice label : Text) : List Selection :=
  (if isAllLabels label then labels else [label]).map (Selection.mk choice)

section repetitions

variable {α β : Type} [BEq α] [LawfulBEq α] [BEq β] [LawfulBEq β]

/-- One more request is dropped if it was made before. -/
theorem eraseDups_append_singleton (requests : List α) (x : α) :
    (requests ++ [x]).eraseDups =
      if x ∈ requests then requests.eraseDups else requests.eraseDups ++ [x] := by
  rw [List.eraseDups_append]
  split
  · rename_i hMade
    simp [List.removeAll, hMade]
  · rename_i hNew
    simp [List.removeAll, hNew, List.eraseDups_cons]

/-- Repetitions may be dropped before requests are picked out or after. -/
theorem filter_eraseDups (p : α → Bool) (requests : List α) :
    requests.eraseDups.filter p = (requests.filter p).eraseDups := by
  induction requests using List.reverseRecOn with
  | nil => rfl
  | append_singleton requests x ih =>
      rw [eraseDups_append_singleton, apply_ite (List.filter p), List.filter_append,
        List.filter_append, ih]
      by_cases hx : p x = true
      · have hMem : x ∈ requests.filter p ↔ x ∈ requests := by simp [hx]
        have hLast : [x].filter p = [x] := by simp [hx]
        rw [hLast, eraseDups_append_singleton]
        simp only [hMem]
      · have hLast : [x].filter p = [] := by simp [hx]
        rw [hLast, List.append_nil, List.append_nil, ite_self]

/-- They may also be dropped before different requests are made into different ones or after. -/
theorem eraseDups_map {f : α → β} (hf : Function.Injective f) (requests : List α) :
    (requests.map f).eraseDups = requests.eraseDups.map f := by
  induction requests using List.reverseRecOn with
  | nil => rfl
  | append_singleton requests x ih =>
      rw [List.map_append, List.map_singleton, eraseDups_append_singleton,
        eraseDups_append_singleton, apply_ite (List.map f), List.map_append, List.map_singleton, ih]
      simp only [List.mem_map_of_injective hf]

end repetitions

theorem eraseDups_eq_nil_iff {requests : List Selection} :
    requests.eraseDups = [] ↔ requests = [] := by
  cases requests with
  | nil => simp
  | cons x requests => simp [List.eraseDups_cons]

namespace Registry

variable {r r' : Registry} {name : Text} {f : Axis → Axis}

/-- The labels of the axis with a name, none if there is no such axis. -/
def labelsOf (r : Registry) (name : Text) : List Text := ((r.get? name).map Axis.labels).getD []

def stateOf? (r : Registry) (name : Text) : Option SelectionState := (r.get? name).map Axis.state

/-- The labels of a choice in a resolver are those of the axis found under its name. -/
theorem labelsOf_eq {a : Axis} (h : r.get? name = some a) : r.labelsOf name = a.labels := by
  simp [labelsOf, h]

theorem SameButSelected.labelsOf_eq (h : r.SameButSelected r') (name : Text) :
    r'.labelsOf name = r.labelsOf name := by
  rw [labelsOf, h.map_get? (fun _ => rfl), labelsOf]

/-- An update that keeps names and labels keeps the labels under every name. -/
theorem labelsOf_modify (r : Registry) (name : Text) (hName : ∀ a, (f a).name = a.name)
    (hLabels : ∀ a, (f a).labels = a.labels) (other : Text) :
    (r.modify name f).labelsOf other = r.labelsOf other := by
  rw [labelsOf, map_get?_modify r name hName hLabels, labelsOf]

/-- A new label stands after those that the axis had. -/
theorem labelsOf_addBranch {a : Axis} {label : Text} (h : r.get? name = some a) (other : Text) :
    (r.modify name (·.addBranch label)).labelsOf other =
      r.labelsOf other ++ if name = other then [label] else [] := by
  rw [labelsOf, get?_modify r name fun b => b.name_addBranch label, labelsOf]
  by_cases hSame : name = other
  · subst hSame
    simp [h]
  · simp [hSame, Ne.symm hSame]

/-- An axis without labels gives no name labels. -/
theorem labelsOf_append (r : Registry) {a : Axis} (ha : a.labels = []) (name : Text) :
    (r.append a).labelsOf name = r.labelsOf name := getD_get?_append r ha name

/-- An update that keeps names and states keeps every state. -/
theorem stateOf?_modify (r : Registry) (name : Text) (hName : ∀ a, (f a).name = a.name)
    (hState : ∀ a, (f a).state = a.state) (other : Text) :
    (r.modify name f).stateOf? other = r.stateOf? other :=
  map_get?_modify r name hName hState other

/-- A new axis has its own state, unless its name is taken. -/
theorem stateOf?_append (r : Registry) (a : Axis) (name : Text) :
    (r.append a).stateOf? name =
      if name ∈ r.names then r.stateOf? name else if a.name = name then some a.state else none := by
  rw [stateOf?, get?_append, stateOf?]
  by_cases hOld : name ∈ r.names
  · obtain ⟨b, hb⟩ := Option.isSome_iff_exists.mp (get?_isSome_iff.mpr hOld)
    rw [if_pos hOld, hb, Option.some_or]
  · rw [if_neg hOld, get?_eq_none_iff.mpr hOld, Option.none_or]
    split <;> rfl

end Registry

namespace Resolver

open Registry (labelsOf)

variable {r r' : Resolver} {choice label : Text} {state : SelectionState} {pos : Pos}
  {requests : List Selection} {a : Axis}

/-- A label that is selected already is not added again, which a sound resolver can tell from the
list of all selections. -/
theorem Sound.selections_pick (h : r.Sound) :
    (Resolver.pick choice state pos r label).selections =
      if ⟨choice, label⟩ ∈ r.selections then r.selections
      else r.selections ++ [⟨choice, label⟩] := by
  rw [Resolver.pick]
  by_cases hMade : (⟨choice, label⟩ : Selection) ∈ r.selections
  · rw [if_pos (h.isSelected_iff.mpr hMade), if_pos hMade]
    rfl
  · rw [if_neg (fun hSelected => hMade (h.isSelected_iff.mp hSelected)), if_neg hMade]
    rfl

/-- Picking a label leaves every axis with the state in which it was; the state was set once for the
request as a whole. -/
theorem stateOf?_pick (name : Text) :
    (pick choice state pos r label).choices.stateOf? name = r.choices.stateOf? name := by
  rw [pick]
  split
  · rfl
  · exact Registry.stateOf?_modify r.choices choice
      (f := fun a => { a with selected := a.selected ++ [label] }) (fun _ => rfl) (fun _ => rfl) name

theorem stateOf?_foldl_pick (labels : List Text) (name : Text) :
    (labels.foldl (pick choice state pos) r).choices.stateOf? name = r.choices.stateOf? name := by
  induction labels generalizing r with
  | nil => rfl
  | cons label labels ih => rw [List.foldl_cons, ih, stateOf?_pick]

/-- Labels of a declared choice that are selected one after another. -/
theorem Sound.selections_foldl_pick {labels : List Text} (h : r.Sound)
    (hMade : r.selections = requests.eraseDups) (ha : r.choices.get? choice = some a)
    (hLabels : ∀ l ∈ labels, l ∈ a.labels) :
    (labels.foldl (Resolver.pick choice state pos) r).selections =
      (requests ++ labels.map (Selection.mk choice)).eraseDups := by
  induction labels generalizing r requests a with
  | nil => simpa using hMade
  | cons label labels ih =>
      have hLabel := hLabels label List.mem_cons_self
      obtain ⟨b, hb, hSame⟩ := (pick_sameButSelected choice state pos r label).get?_some ha
      have hPicked : (Resolver.pick choice state pos r label).selections =
          (requests ++ [Selection.mk choice label]).eraseDups := by
        rw [h.selections_pick, eraseDups_append_singleton, hMade]
        simp only [List.mem_eraseDups]
      have hMore := ih (h.pick ha hLabel) hPicked hb fun l hl => by
        rw [Axis.labels_of_unselected hSame]
        exact hLabels l (List.mem_cons_of_mem _ hl)
      rw [List.foldl_cons, hMore, List.map_cons, List.append_assoc, List.singleton_append]

/-- The labels that a request stands for are those of its expansion, one label or all that are
declared. -/
theorem expand_eq_ok {labels : List Text} (h : expand a label pos = .ok labels) :
    labels.map (Selection.mk choice) = Selection.expansion a.labels choice label := by
  rw [expand] at h
  rw [Selection.expansion]
  split at h
  · rename_i hAll
    cases h
    rw [if_pos hAll]
  · rename_i hOne
    rw [if_neg hOne]
    split at h
    · cases h
      rfl
    · cases h

/-- A request that is met adds what it stands for and marks its choice. -/
theorem Sound.select_requests (h : r.Sound) (hMade : r.selections = requests.eraseDups)
    (ha : r.choices.get? choice = some a) (hSelect : r.select a label state pos = (r', none)) :
    r'.selections = (requests ++ Selection.expansion a.labels choice label).eraseDups ∧
      ∀ name, r'.choices.stateOf? name =
        if name = choice then some state else r.choices.stateOf? name := by
  obtain ⟨-, hName⟩ := Registry.get?_eq_some ha
  rw [select, hName] at hSelect
  split at hSelect
  · cases hSelect
  · rename_i labels hExpand
    cases hSelect
    have hGet := Registry.get?_modify r.choices choice
      (f := fun b => { b with state }) (fun _ => rfl)
    constructor
    · have hMarked : Resolver.Sound
          { r with choices := r.choices.modify choice ({ · with state }) } :=
        h.modify (fun _ => ⟨rfl, rfl, fun _ hl => hl⟩) (fun _ => rfl)
          fun _ _ _ hb =>
            ⟨hb.labels_nodup, hb.blocks_labels, hb.not_reserved, hb.default_mem, hb.selected_mem⟩
      have hFound : (r.choices.modify choice ({ · with state })).get? choice =
          some { a with state } := by
        rw [hGet choice, if_pos rfl, ha, Option.map_some]
      have hLabels : ∀ l ∈ labels, l ∈ a.labels :=
        expand_subset (h.choices.of_get? ha).2.2 hExpand
      rw [← expand_eq_ok hExpand]
      exact hMarked.selections_foldl_pick hMade hFound hLabels
    · intro name
      rw [stateOf?_foldl_pick, Registry.stateOf?, Registry.stateOf?, hGet name]
      split
      · rename_i hSame
        rw [hSame, ha]
        rfl
      · rfl

/-- A select statement adds what it stands for, unless a directive names its choice. -/
theorem Sound.selectInScript_requests {directives : List Directive} (h : r.Sound)
    (hMade : r.selections = requests.eraseDups)
    (hSelect : r.selectInScript directives choice label pos = (r', none)) :
    choice ∈ r.choices.names ∧
      r'.selections = (requests ++ if directives.any (·.choice == choice) then []
        else Selection.expansion (labelsOf r.choices choice) choice label).eraseDups ∧
      ∀ name, r'.choices.stateOf? name =
        if name = choice ∧ directives.any (·.choice == choice) = false then some .setInScript
        else r.choices.stateOf? name := by
  rw [selectInScript] at hSelect
  split at hSelect
  · cases hSelect
  · rename_i a hLookup
    have ha := lookup_eq_ok hLookup
    refine ⟨Registry.get?_isSome_iff.mp (by rw [ha]; rfl), ?_⟩
    rw [Registry.labelsOf_eq ha]
    split at hSelect
    · rename_i hOverridden
      cases hSelect
      simp [hOverridden, hMade, warn]
    · rename_i hFree
      have hFree' : directives.any (·.choice == choice) = false := by simpa using hFree
      have hRequests := h.select_requests hMade ha hSelect
      simpa [hFree'] using hRequests

/-- A directive adds what it stands for. -/
theorem Sound.applyDirective_requests {d : Directive} (h : r.Sound)
    (hMade : r.selections = requests.eraseDups) (hApply : r.applyDirective d = (r', none)) :
    r'.selections =
        (requests ++ Selection.expansion (labelsOf r.choices d.choice) d.choice d.label).eraseDups ∧
      ∀ name, r'.choices.stateOf? name =
        if name = d.choice then some .suppliedByOption else r.choices.stateOf? name := by
  rw [applyDirective] at hApply
  split at hApply
  · cases hApply
  · rename_i a hLookup
    have ha := lookup_eq_ok hLookup
    rw [Registry.labelsOf_eq ha]
    split at hApply
    · cases hApply
    · rename_i r₁ hSelect
      have hRequests := h.select_requests hMade ha hSelect
      split at hApply
      · cases hApply
        exact hRequests
      · cases hApply
        exact hRequests

/-- Directives that are all met. No choice gains labels on the way. -/
theorem Sound.applyDirectives_requests {directives : List Directive} (h : r.Sound)
    (hMade : r.selections = requests.eraseDups)
    (hApply : r.applyDirectives directives = (r', none)) :
    r'.selections = (requests ++ directives.flatMap fun d =>
        Selection.expansion (labelsOf r.choices d.choice) d.choice d.label).eraseDups ∧
      ∀ name, r'.choices.stateOf? name =
        if directives.any (·.choice == name) then some .suppliedByOption
        else r.choices.stateOf? name := by
  induction directives generalizing r requests with
  | nil =>
      cases hApply
      simpa using hMade
  | cons d directives ih =>
      rw [applyDirectives] at hApply
      split at hApply
      · cases hApply
      · rename_i r₁ hFirst
        obtain ⟨hSame, hSound⟩ := applyDirective_spec hFirst
        obtain ⟨hSelections, hState⟩ := h.applyDirective_requests hMade hFirst
        obtain ⟨hMore, hStates⟩ := ih (hSound h) hSelections hApply
        constructor
        · simpa [hSame.labelsOf_eq] using hMore
        · intro name
          rw [hStates, hState, List.any_cons]
          by_cases hNamed : directives.any (·.choice == name) = true
          · simp [hNamed]
          · by_cases hFirst : name = d.choice
            · simp [hFirst]
            · simp [hNamed, hFirst, Ne.symm hFirst]

/-- What the final selections may be: those that were made, the default of the only choice, or none
when there is no choice or when several are declared and no case statement was over one. -/
theorem resolve_eq_ok {occurred : Bool} {selections : List Selection}
    (h : r.resolve occurred pos = (r', .ok selections)) :
    (r.selections ≠ [] ∧ r' = r) ∨
      (r.selections = [] ∧ ∃ a l, r.choices.axes = [a] ∧ a.defaultLabel? = some l ∧
        r'.choices = (r.add a.name l).choices ∧ r'.selections = [⟨a.name, l⟩]) ∨
      (r.selections = [] ∧ r' = r ∧ r.choices.axes.length ≠ 1 ∧
        (2 ≤ r.choices.axes.length → occurred = false)) := by
  rw [resolve] at h
  split at h
  · rename_i hSome
    cases h
    exact Or.inl ⟨by simpa using hSome, rfl⟩
  · rename_i hEmpty
    have hNone : r.selections = [] := by simpa using hEmpty
    refine Or.inr ?_
    split at h
    · rename_i hAxes
      cases h
      exact Or.inr ⟨hNone, rfl, by simp [hAxes], by simp [hAxes]⟩
    · rename_i a hAxes
      split at h
      · cases h
      · rename_i l hDefault
        cases h
        refine Or.inl ⟨hNone, a, l, hAxes, hDefault, rfl, ?_⟩
        simp [add, note, hNone]
    · rename_i axes hNil hOne
      split at h
      · rename_i hOccurred
        cases h
        refine Or.inr ⟨hNone, rfl, fun hLength => ?_, fun _ => by simpa using hOccurred⟩
        obtain ⟨a, hAxes⟩ := List.length_eq_one_iff.mp hLength
        exact hOne a hAxes
      · cases h

end Resolver

end Runsheet
