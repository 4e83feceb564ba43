import Runsheet.Block

/-! Laws of open blocks and of blocks kept under labels. An operation that is refused leaves them as
they were, except that a block which is added to some labels stays added to those before the first
without a block. -/
namespace Runsheet

namespace Scopes

variable {s s' : Scopes} {b : Block} {v : Violation} {switch : Switch}

/-- A switch that is taken goes to the end of the innermost block, and the blocks around it stay as
they are. -/
theorem register_eq_ok (h : s.register switch = (s', .ok b)) :
    ∃ bs, s.blocks = b :: bs ∧ s' = ⟨b.push switch :: bs⟩ := by
  rw [register, top] at h
  cases hBlocks : s.blocks with
  | nil =>
      rw [hBlocks] at h
      cases h
  | cons b bs =>
      rw [hBlocks] at h
      cases h
      exact ⟨bs, rfl, rfl⟩

/-- A switch finds no block only when none is open, and then nothing is opened for it. -/
theorem register_eq_error (h : s.register switch = (s', .error v)) : s.blocks = [] ∧ s' = s := by
  rw [register, top] at h
  cases hBlocks : s.blocks with
  | nil =>
      rw [hBlocks] at h
      cases h
      exact ⟨rfl, rfl⟩
  | cons b bs =>
      rw [hBlocks] at h
      cases h

theorem main_eq_ok_iff : s.main = .ok b ↔ s.blocks.getLast? = some b := by
  rw [main]
  cases s.blocks.getLast? with
  | none => exact iff_of_false nofun nofun
  | some c => exact ⟨fun h => congrArg some (Except.ok.inj h), fun h => congrArg _ (Option.some.inj h)⟩

/-- A block that is closed had another one around it. The main block is never handed out. -/
theorem pop_eq_ok (h : s.pop = (s', .ok b)) :
    ∃ b' bs, s.blocks = b :: b' :: bs ∧ s' = ⟨b' :: bs⟩ := by
  rw [pop] at h
  split at h
  · rename_i b' bs hBlocks
    cases h
    exact ⟨_, _, hBlocks, rfl⟩
  · cases h

/-- The main block is the one that cannot be closed. -/
theorem pop_eq_error (h : s.pop = (s', .error v)) : s.depth ≤ 1 ∧ s' = s := by
  rw [pop] at h
  split at h
  · cases h
  · rename_i hBlocks
    cases h
    refine ⟨?_, rfl⟩
    rcases hShape : s.blocks with _ | ⟨b, _ | ⟨b', bs⟩⟩
    · simp [depth, hShape]
    · simp [depth, hShape]
    · exact absurd hShape (hBlocks b b' bs)

end Scopes

namespace Shelf

variable {s : Shelf} {label : Text} {block : Block} {targets : List Text}

def labels (s : Shelf) : List Text := s.branches.map Branch.label

/-- A block is found exactly under the labels of the shelf, whatever the order in which they came.
-/
theorem get?_isSome_iff : (s.get? label).isSome = true ↔ label ∈ s.labels := by
  simp [get?, labels, List.find?_isSome]

theorem get?_eq_none_iff : s.get? label = none ↔ label ∉ s.labels := by
  rw [← get?_isSome_iff, Bool.not_eq_true, Option.isSome_eq_false_iff, Option.isNone_iff_eq_none]

/-- What is found under a label is in one of its branches. -/
theorem mem_of_get? (h : s.get? label = some block) : ⟨label, block⟩ ∈ s.branches := by
  obtain ⟨branch, hFind, rfl⟩ := Option.map_eq_some_iff.mp h
  have hLabel : branch.label = label := by simpa using List.find?_some hFind
  subst hLabel
  exact List.mem_of_find?_eq_some hFind

/-- Under a label that had none, a block comes to stand behind the others. -/
theorem branches_put (h : label ∉ s.labels) :
    (s.put label block).branches = s.branches ++ [⟨label, block⟩] := by
  have hKept : s.branches.filter (·.label != label) = s.branches := by
    rw [List.filter_eq_self]
    intro branch hBranch
    have hOther : branch.label ≠ label := fun hSame => h (hSame ▸ List.mem_map_of_mem hBranch)
    simpa using hOther
  rw [put, hKept]

/-- A label without a block gets one at the end. For a label that has one already, its block would
be replaced and the list stay the same. -/
theorem labels_put (h : label ∉ s.labels) : (s.put label block).labels = s.labels ++ [label] := by
  rw [labels, branches_put h, List.map_append]
  rfl

/-- Changing a block neither adds nor drops a label, even if the label has no block at all. -/
@[simp] theorem labels_modify (s : Shelf) (label : Text) (f : Block → Block) :
    (s.modify label f).labels = s.labels := by
  simp only [labels, modify, List.map_map]
  apply List.map_congr_left
  intro branch _
  simp only [Function.comp_apply]
  split <;> rfl

/-- However far the targets are reached, no label comes to have a block that had none, and none
loses its block. -/
theorem labels_absorb (s : Shelf) (block : Block) (targets : List Text) :
    (s.absorb block targets).1.labels = s.labels := by
  induction targets generalizing s with
  | nil => rfl
  | cons label targets ih =>
      rw [absorb]
      split
      · rfl
      · rw [ih, labels_modify]

/-- All targets are reached exactly when each has a block. -/
theorem absorb_eq_none_iff :
    (s.absorb block targets).2 = none ↔ ∀ l ∈ targets, l ∈ s.labels := by
  induction targets generalizing s with
  | nil => exact iff_of_true rfl nofun
  | cons label targets ih =>
      rw [absorb, List.forall_mem_cons]
      split
      · rename_i hNone
        exact iff_of_false nofun fun h => get?_eq_none_iff.mp hNone h.1
      · rename_i own hSome
        rw [ih, labels_modify]
        have hLabel : label ∈ s.labels := get?_isSome_iff.mp (by rw [hSome]; rfl)
        exact (and_iff_right hLabel).symm

/-- When every target has a block and none comes twice, each of their blocks is added to once and the
others are left alone. -/
theorem branches_absorb (hNodup : targets.Nodup) (h : ∀ l ∈ targets, l ∈ s.labels) :
    (s.absorb block targets).1.branches = s.branches.map fun b =>
      if b.label ∈ targets then { b with block := b.block.absorb block } else b := by
  induction targets generalizing s with
  | nil => simp [absorb]
  | cons label targets ih =>
      obtain ⟨hFirst, hRest⟩ := List.forall_mem_cons.mp h
      obtain ⟨hNew, hNodup⟩ := List.nodup_cons.mp hNodup
      obtain ⟨own, hOwn⟩ := Option.isSome_iff_exists.mp (get?_isSome_iff.mpr hFirst)
      have hTargets : ∀ l ∈ targets, l ∈ (s.modify label (·.absorb block)).labels := by
        rw [labels_modify]
        exact hRest
      rw [absorb, hOwn]
      dsimp only
      rw [ih hNodup hTargets, modify, List.map_map]
      apply List.map_congr_left
      intro b _
      by_cases hLabel : b.label = label
      · simp [hLabel, hNew]
      · simp [hLabel]

end Shelf

end Runsheet
