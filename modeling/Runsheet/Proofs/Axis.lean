import Mathlib.Data.List.Nodup
import Runsheet.CaseCheck
import Runsheet.Proofs.Block

/-! Laws of axes and registries: what a look-up finds after an update, and which updates keep the
labels of an axis. Nothing here depends on the order in which a script calls the operations. -/
namespace Runsheet

namespace Axis

@[simp] theorem name_addBranch (a : Axis) (label : Text) : (a.addBranch label).name = a.name := rfl

@[simp] theorem labels_addBranch (a : Axis) (label : Text) :
    (a.addBranch label).labels = a.labels ++ [label] := rfl

@[simp] theorem name_enrich (a : Axis) (ls : List Text) (b : Block) :
    (a.enrich ls b).name = a.name := rfl

@[simp] theorem labels_enrich (a : Axis) (ls : List Text) (b : Block) :
    (a.enrich ls b).labels = a.labels := rfl

/-- An update that keeps the name, the sort and every label of an axis. It may add labels. -/
structure Extends (a b : Axis) : Prop where
  name : b.name = a.name
  kind : b.kind = a.kind
  labels : ∀ l ∈ a.labels, l ∈ b.labels

theorem Extends.refl (a : Axis) : Extends a a := ⟨rfl, rfl, fun _ h => h⟩

/-- What holds of every axis a script can build: its labels are different from each other and none
stands for all of them, they are the ones that have blocks, the default is one of them, and so is
every selected label. -/
structure Sound (a : Axis) : Prop where
  labels_nodup : a.labels.Nodup
  blocks_labels : a.blocks.labels = a.labels
  not_reserved : ∀ l ∈ a.labels, isAllLabels l = false
  default_mem : a.default = [] ∨ a.default ∈ a.labels
  selected_mem : ∀ l ∈ a.selected, l ∈ a.labels

/-- The labels are kept apart from the blocks, but in an axis that a script can build exactly the
declared labels have a block. -/
theorem Sound.block?_isSome_iff {a : Axis} (h : a.Sound) (label : Text) :
    (a.block? label).isSome = true ↔ label ∈ a.labels := by
  rw [block?, Shelf.get?_isSome_iff, h.blocks_labels]

/-- The check by which a label counts as declared looks at the blocks. In a sound axis it therefore
answers for the declared labels too. -/
theorem Sound.hasLabel_iff {a : Axis} (h : a.Sound) (label : Text) :
    a.hasLabel label = true ↔ label ∈ a.labels :=
  h.block?_isSome_iff label

/-- The same for the negative answer, which is what a refused label leaves behind. -/
theorem Sound.hasLabel_eq_false_iff {a : Axis} (h : a.Sound) (label : Text) :
    a.hasLabel label = false ↔ label ∉ a.labels := by
  rw [← h.hasLabel_iff, Bool.not_eq_true]

end Axis

namespace Registry

variable {r r' : Registry} {name other : Text} {f : Axis → Axis}

theorem get?_eq_some {a : Axis} (h : r.get? name = some a) : a ∈ r.axes ∧ a.name = name := by
  refine ⟨List.mem_of_find?_eq_some h, ?_⟩
  simpa using List.find?_some h

/-- A look-up succeeds exactly for the declared names. Where several axes bear one name, the first
of them is found. -/
theorem get?_isSome_iff : (r.get? name).isSome = true ↔ name ∈ r.names := by
  simp [get?, names, List.find?_isSome]

theorem get?_eq_none_iff : r.get? name = none ↔ name ∉ r.names := by
  rw [← get?_isSome_iff, Bool.not_eq_true, Option.isSome_eq_false_iff, Option.isNone_iff_eq_none]

/-- With different names, an axis is found under its own name. -/
theorem get?_of_mem {a : Axis} (hNames : r.names.Nodup) (ha : a ∈ r.axes) :
    r.get? a.name = some a := by
  obtain ⟨b, hb⟩ : ∃ b, r.get? a.name = some b :=
    Option.isSome_iff_exists.mp (get?_isSome_iff.mpr (List.mem_map_of_mem ha))
  obtain ⟨hMem, hName⟩ := get?_eq_some hb
  rw [hb, List.inj_on_of_nodup_map hNames hMem ha hName]

/-- What an update keeps of every axis it keeps of the registry. -/
theorem map_modify {β : Type} (r : Registry) (name : Text) (g : Axis → β)
    (hf : ∀ a, g (f a) = g a) : (r.modify name f).axes.map g = r.axes.map g := by
  simp only [modify, List.map_map]
  apply List.map_congr_left
  intro a _
  simp only [Function.comp_apply]
  split
  · exact hf a
  · rfl

section modify

variable (r : Registry) (name : Text) (hf : ∀ a, (f a).name = a.name)
include hf

theorem names_modify : (r.modify name f).names = r.names := map_modify r name Axis.name hf

/-- A look-up after an update finds the updated axis under its own name and what was there under
every other. The update has to keep names, or the changed axis would be found elsewhere. -/
theorem get?_modify (other : Text) :
    (r.modify name f).get? other =
      if other = name then (r.get? other).map f else r.get? other := by
  simp only [get?, modify]
  induction r.axes with
  | nil => simp
  | cons a axes ih =>
      rw [List.map_cons, List.find?_cons, List.find?_cons, ih]
      by_cases hName : a.name = name
      · by_cases hOther : a.name = other
        · simp [hf, hName, ← hOther]
        · simp [hf, hName, beq_false_of_ne (hName ▸ hOther : name ≠ other)]
      · by_cases hOther : a.name = other
        · simp [hOther, show other ≠ name from hOther ▸ hName]
        · simp [hName, beq_false_of_ne hOther]

/-- It keeps the same of the axis with any name. -/
theorem map_get?_modify {β : Type} {g : Axis → β} (hg : ∀ a, g (f a) = g a) (other : Text) :
    ((r.modify name f).get? other).map g = (r.get? other).map g := by
  rw [get?_modify r name hf]
  split
  · cases r.get? other <;> simp [hg]
  · rfl

end modify

/-- An axis of an updated registry was either there before or is the update of one with the given
name. -/
theorem mem_modify {a : Axis} (h : a ∈ (r.modify name f).axes) :
    a ∈ r.axes ∨ ∃ b ∈ r.axes, b.name = name ∧ a = f b := by
  simp only [modify, List.mem_map] at h
  obtain ⟨b, hb, rfl⟩ := h
  by_cases hName : b.name = name
  · exact Or.inr ⟨b, hb, hName, by simp [hName]⟩
  · exact Or.inl (by simpa [hName] using hb)

/-- What holds of every registry a script can build: its axes have the registry's sort and names
different from each other, and each of them is sound. -/
structure Sound (r : Registry) (kind : AxisKind) : Prop where
  kind_eq : r.kind = kind
  names_nodup : r.names.Nodup
  axes : ∀ a ∈ r.axes, a.kind = kind ∧ a.Sound

/-- What is looked up in a sound registry has the name it was looked up by, the sort of the
registry, and is sound itself. -/
theorem Sound.of_get? {kind : AxisKind} {a : Axis} (h : r.Sound kind) (ha : r.get? name = some a) :
    a.name = name ∧ a.kind = kind ∧ a.Sound :=
  ⟨(get?_eq_some ha).2, h.axes a (get?_eq_some ha).1⟩

/-- An update of one axis that keeps it sound keeps the registry sound. -/
theorem Sound.modify {kind : AxisKind} (h : r.Sound kind)
    (hf : ∀ a, Axis.Extends a (f a)) (hSound : ∀ a ∈ r.axes, a.name = name → a.Sound → (f a).Sound) :
    (r.modify name f).Sound kind where
  kind_eq := h.kind_eq
  names_nodup := by
    rw [names_modify _ _ fun a => (hf a).name]
    exact h.names_nodup
  axes := by
    intro a ha
    rcases mem_modify ha with hOld | ⟨b, hb, hName, rfl⟩
    · exact h.axes a hOld
    · obtain ⟨hKind, hb'⟩ := h.axes b hb
      exact ⟨(hf b).kind.trans hKind, hSound b hb hName hb'⟩

/-- Every axis of one registry stands, perhaps with more labels, in another. -/
def Extends (r r' : Registry) : Prop :=
  ∀ name a, r.get? name = some a → ∃ a', r'.get? name = some a' ∧ a.Extends a'

theorem extends_modify (r : Registry) (name : Text) (hf : ∀ a, Axis.Extends a (f a)) :
    Extends r (r.modify name f) := by
  intro other a ha
  rw [get?_modify _ _ (fun a => (hf a).name)]
  by_cases hOther : other = name
  · subst hOther
    exact ⟨f a, by simp [ha], hf a⟩
  · exact ⟨a, by simp [hOther, ha], .refl a⟩

def append (r : Registry) (a : Axis) : Registry := { r with axes := r.axes ++ [a] }

@[simp] theorem names_append (r : Registry) (a : Axis) : (r.append a).names = r.names ++ [a.name] := by
  simp [append, names]

/-- A new axis is found only under its own name, and only if that name was free before: older axes
come first. -/
theorem get?_append (r : Registry) (a : Axis) (name : Text) :
    (r.append a).get? name = (r.get? name).or (if a.name = name then some a else none) := by
  simp only [append, get?, List.find?_append, List.find?_singleton, beq_iff_eq]

/-- A new axis that is as good as none gives no name anything new. -/
theorem getD_get?_append {β : Type} {g : Axis → β} {d : β} (r : Registry) {a : Axis} (ha : g a = d)
    (name : Text) : (((r.append a).get? name).map g).getD d = ((r.get? name).map g).getD d := by
  rw [get?_append]
  cases r.get? name with
  | some b => rfl
  | none =>
      rw [Option.none_or]
      split
      · exact ha
      · rfl

theorem extends_append (r : Registry) (a : Axis) : Extends r (r.append a) := by
  intro name b hb
  exact ⟨b, by rw [get?_append, hb, Option.some_or], .refl b⟩

/-- A sound axis under a free name keeps a registry sound. This is all that a declaration has to
check. -/
theorem Sound.append {kind : AxisKind} {a : Axis} (h : r.Sound kind) (hNew : a.name ∉ r.names)
    (hKind : a.kind = kind) (ha : a.Sound) : (r.append a).Sound kind where
  kind_eq := h.kind_eq
  names_nodup := by
    rw [names_append]
    refine List.nodup_append.mpr ⟨h.names_nodup, List.nodup_singleton _, ?_⟩
    intro n hn m hm hnm
    rw [List.mem_singleton.mp hm] at hnm
    exact hNew (hnm ▸ hn)
  axes := by
    intro b hb
    rcases List.mem_append.mp hb with hOld | hLast
    · exact h.axes b hOld
    · rw [List.mem_singleton.mp hLast]
      exact ⟨hKind, ha⟩

end Registry

/-- A freshly declared axis has no labels. -/
theorem Axis.sound_new (kind : AxisKind) (name : Text) (declared : Pos) :
    Axis.Sound { kind, name, declared } where
  labels_nodup := List.nodup_nil
  blocks_labels := rfl
  not_reserved := nofun
  default_mem := Or.inl rfl
  selected_mem := by simp

/-- A label that is new and not reserved keeps an axis sound: it gets its block in the same step, so
labels and blocks go on listing the same. -/
theorem Axis.Sound.addBranch {a : Axis} {label : Text} (h : a.Sound)
    (hReserved : isAllLabels label = false) (hNew : label ∉ a.labels) :
    (a.addBranch label).Sound where
  labels_nodup := by
    rw [labels_addBranch]
    refine List.nodup_append.mpr ⟨h.labels_nodup, List.nodup_singleton _, ?_⟩
    intro l hl m hm hlm
    rw [List.mem_singleton.mp hm] at hlm
    exact hNew (hlm ▸ hl)
  blocks_labels := by
    -- The label is new, so its block does not take the place of another.
    have hPut : (a.addBranch label).blocks.labels = a.blocks.labels ++ [label] :=
      Shelf.labels_put (h.blocks_labels ▸ hNew)
    rw [hPut, h.blocks_labels, labels_addBranch]
  not_reserved := by
    intro l hl
    rw [labels_addBranch] at hl
    rcases List.mem_append.mp hl with hOld | hLast
    · exact h.not_reserved l hOld
    · rw [List.mem_singleton.mp hLast]
      exact hReserved
  default_mem := by
    rw [labels_addBranch]
    exact h.default_mem.imp id (List.mem_append_left _)
  selected_mem := by
    intro l hl
    rw [labels_addBranch]
    exact List.mem_append_left _ (h.selected_mem l hl)

/-- Adding switches to blocks touches neither the labels nor which of them have a block. -/
theorem Axis.Sound.enrich {a : Axis} (h : a.Sound) (labels : List Text) (block : Block) :
    (a.enrich labels block).Sound where
  labels_nodup := h.labels_nodup
  blocks_labels := (Shelf.labels_absorb a.blocks block labels).trans h.blocks_labels
  not_reserved := h.not_reserved
  default_mem := h.default_mem
  selected_mem := h.selected_mem

end Runsheet
