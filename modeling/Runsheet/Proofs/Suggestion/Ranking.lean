import Runsheet.Proofs.Suggestion.Sorting

/-! The candidate that is ranked first. A division by a pivot puts what is nearer than the pivot to the
left of it and the rest to the right, so a nearest candidate is always in the part that is sorted
next; the right part is never looked at again. What is tried before a division, to break up patterns
or to save the work, only exchanges candidates. -/
namespace Runsheet

namespace Ranking

variable {r r' : Ranking} {i j k n : Nat}

section pivot

/-- The random number has as many bits as the number of places, so that it has to be reduced once at
most. -/
theorem randomPlace_lt (hn : 0 < n) (x : UInt64) : randomPlace n x < n := by
  have hPower : 2 ^ (n.log2 + 1) ≤ 2 * n := by
    have := Nat.log2_self_le hn.ne'
    rw [Nat.pow_succ]
    omega
  have hPlace : x.toNat % 2 ^ (n.log2 + 1) < 2 ^ (n.log2 + 1) := Nat.mod_lt _ (Nat.two_pow_pos _)
  simp only [randomPlace, Nat.one_shiftLeft]
  split <;> omega

/-- The three places in the middle and the random ones all lie among the first `n`. -/
theorem shuffled_breakPatterns (hn : 4 ≤ n) (r : Ranking) : Shuffled 0 n r (breakPatterns n r) := by
  have hSwap : ∀ (r : Ranking) i x, i < n → Shuffled 0 n r (swap r i (randomPlace n x)) :=
    fun r i x hi => shuffled_swap (Nat.zero_le _) hi (Nat.zero_le _) (randomPlace_lt (by omega) x)
  exact ((hSwap r _ _ (by omega)).trans (hSwap _ _ _ (by omega))).trans (hSwap _ _ _ (by omega))

section bounds

variable {x y z : Nat} (hx : x < n) (hy : y < n) (hz : z < n) (swaps : Nat)
include hx hy

theorem ordered_lt : (ordered r x y swaps).1 < n ∧ (ordered r x y swaps).2.1 < n := by
  rw [ordered]
  split
  · exact ⟨hy, hx⟩
  · exact ⟨hx, hy⟩

include hz

/-- Medians are chosen from the places and never computed, so that they stay among them. -/
theorem median_lt : (median r x y z swaps).1 < n := by
  have hFirst := ordered_lt (r := r) hx hy swaps
  have hSecond := ordered_lt (r := r) hFirst.2 hz (ordered r x y swaps).2.2
  exact (ordered_lt hFirst.1 hSecond.1 _).2

end bounds

/-- From eight places on, all places around the three quarters lie among them. -/
theorem choosePivot_lt (hn : 8 ≤ n) (r : Ranking) : (choosePivot n r).1 < n := by
  have hAround : ∀ x swaps, x + 1 < n →
      (if 50 ≤ n then median r (x - 1) x (x + 1) swaps else (x, swaps)).1 < n := by
    intro x swaps hx
    split
    · exact median_lt (by omega) (by omega) hx swaps
    · exact Nat.lt_of_succ_lt hx
  exact median_lt (hAround _ _ (by omega)) (hAround _ _ (by omega)) (hAround _ _ (by omega)) _

theorem shuffled_reverse (hj : j < n) (r : Ranking) (i : Nat) : Shuffled 0 n r (reverse r i j) := by
  fun_induction reverse r i j with
  | case1 r i j hLess ih =>
      exact (shuffled_swap (Nat.zero_le i) (by omega) (Nat.zero_le j) hj).trans (ih (by omega))
  | case2 r i j => exact Shuffled.refl 0 n r

end pivot

section repair

/-- Moving a candidate to the right only touches places from it on, up to the end. -/
theorem shuffled_moveRight (hi : 0 < i) (n : Nat) (r : Ranking) :
    Shuffled (i - 1) n r (moveRight n r i) := by
  fun_induction moveRight n r i with
  | case1 r i hMoves ih =>
      rw [Bool.and_eq_true, decide_eq_true_eq] at hMoves
      have hSwap : Shuffled (i - 1) n r (swap r i (i - 1)) :=
        shuffled_swap (Nat.sub_le i 1) hMoves.1 le_rfl (by omega)
      exact hSwap.trans ((ih (Nat.succ_pos i)).mono (by omega) le_rfl)
  | case2 r i => exact Shuffled.refl _ n r

/-- One place more is in order when its candidate is not nearer than the one before it. -/
theorem Sorted.succ (h : Sorted i r) (hNext : distanceAt r (i - 1) ≤ distanceAt r i) :
    Sorted (i + 1) r := by
  intro j k hjk hk
  by_cases hki : k = i
  · subst hki
    by_cases hj : j = k
    · rw [hj]
    · exact (h j (k - 1) (by omega) (by omega)).trans hNext
  · exact h j k hjk (by omega)

/-- The places before a drop are in order. -/
theorem sorted_firstDrop (h : Sorted i r) : Sorted (firstDrop n r i) r := by
  fun_induction firstDrop n r i with
  | case1 i hMore ih =>
      rw [Bool.and_eq_true, Bool.not_eq_true', not_less_iff] at hMore
      exact ih (h.succ hMore.2)
  | case2 i => exact h

theorem le_firstDrop (n : Nat) (r : Ranking) (i : Nat) : i ≤ firstDrop n r i := by
  fun_induction firstDrop n r i with
  | case1 i _ ih => omega
  | case2 i => exact le_rfl

theorem firstDrop_le (hi : i ≤ n) : firstDrop n r i ≤ n := by
  fun_induction firstDrop n r i with
  | case1 i hMore ih =>
      rw [Bool.and_eq_true, decide_eq_true_eq] at hMore
      exact ih hMore.1
  | case2 i => exact hi

/-- A drop is put right by moving the two candidates apart, each to where it belongs. -/
theorem sorted_apart (h : Sorted i r) (hi : 0 < i) (hin : i < n) (hn : n ≤ r.size) :
    let r₁ := swap r i (i - 1)
    let r₂ := if 2 ≤ i then moveLeft r₁ (i - 1) else r₁
    let r₃ := if 2 ≤ n - i then moveRight n r₂ (i + 1) else r₂
    Shuffled 0 n r r₃ ∧ Sorted i r₃ := by
  intro r₁ r₂ r₃
  have hSwap : Shuffled (i - 1) n r r₁ :=
    shuffled_swap (Nat.sub_le i 1) hin le_rfl (by omega)
  have hLeft : Shuffled 0 n r₁ r₂ := by
    dsimp only [r₂]
    split
    · exact shuffled_moveLeft (by omega) r₁
    · exact Shuffled.refl 0 n r₁
  have hRight : Shuffled i n r₂ r₃ := by
    dsimp only [r₃]
    split
    · exact shuffled_moveRight (Nat.succ_pos i) n r₂
    · exact Shuffled.refl i n r₂
  have hBefore : Sorted i r₂ := by
    have hOthers : Sorted (i - 1) r₁ :=
      Sorted.of_shuffled (fun j k hjk hk => h j k hjk (by omega)) hSwap
    dsimp only [r₂]
    split
    · have hMoved := hOthers.moveLeft (by rw [hSwap.size_eq]; omega)
      rwa [Nat.sub_add_cancel hi] at hMoved
    · intro j k hjk hk
      obtain rfl : j = k := by omega
      exact le_rfl
  exact ⟨((hSwap.mono (Nat.zero_le _) le_rfl).trans hLeft).trans (hRight.mono (Nat.zero_le i) le_rfl),
    hBefore.of_shuffled hRight⟩

/-- Attempts to repair keep what lies before the drop in order. When no drop is left all places are,
and that is when success is told. By induction on the attempts. -/
theorem repair_spec (h : Sorted i r) (hi : 0 < i) (hin : i ≤ n) (hn : n ≤ r.size) (attempts : Nat) :
    Shuffled 0 n r (repair n attempts i r).1 ∧
      ((repair n attempts i r).2 = true → Sorted n (repair n attempts i r).1) := by
  induction attempts generalizing i r with
  | zero => exact ⟨Shuffled.refl 0 n r, nofun⟩
  | succ attempts ih =>
      have hDrop : Sorted (firstDrop n r i) r := sorted_firstDrop h
      have hDropPos : 0 < firstDrop n r i := hi.trans_le (le_firstDrop n r i)
      have hDropLe : firstDrop n r i ≤ n := firstDrop_le hin
      rw [repair]
      dsimp only
      generalize firstDrop n r i = d at *
      split
      · rename_i hEnd
        exact ⟨Shuffled.refl 0 n r, fun _ => hEnd ▸ hDrop⟩
      split
      · exact ⟨Shuffled.refl 0 n r, nofun⟩
      · obtain ⟨hShuffled, hSorted⟩ := sorted_apart hDrop hDropPos (by omega) hn
        obtain ⟨hRest, hDone⟩ := ih hSorted hDropPos hDropLe (by rwa [hShuffled.size_eq])
        exact ⟨hShuffled.trans hRest, hDone⟩

end repair

section partition

/-- The pivot stands first; what comes before the place `i` is nearer, what comes after `j` is not. -/
structure Parted (n i j : Nat) (r : Ranking) : Prop where
  nearer : ∀ k, 1 ≤ k → k < i → distanceAt r k < distanceAt r 0
  others : ∀ k, j < k → k < n → distanceAt r 0 ≤ distanceAt r k

/-- Going up passes only candidates that are nearer than the pivot, which stays where it is. -/
theorem Parted.scanUp (h : Parted n i j r) : Parted n (scanUp r i j) j r := by
  fun_induction Ranking.scanUp r i j with
  | case1 i hNearer ih =>
      rw [Bool.and_eq_true, less_iff] at hNearer
      refine ih ⟨fun k hk hki => ?_, h.others⟩
      rcases Nat.lt_succ_iff_lt_or_eq.mp hki with hki | rfl
      · exact h.nearer k hk hki
      · exact hNearer.2
  | case2 i => exact h

/-- It stops behind the last place at the latest. -/
theorem scanUp_le (hij : i ≤ j + 1) : scanUp r i j ≤ j + 1 := by
  fun_induction scanUp r i j with
  | case1 i hNearer ih =>
      rw [Bool.and_eq_true, decide_eq_true_eq] at hNearer
      exact ih (by omega)
  | case2 i => exact hij

/-- Where it stops before the end stands a candidate of the other part. -/
theorem le_distanceAt_scanUp (h : scanUp r i j ≤ j) :
    distanceAt r 0 ≤ distanceAt r (scanUp r i j) := by
  fun_induction scanUp r i j with
  | case1 i _ ih => exact ih h
  | case2 i hStop => exact not_less_iff.mp (by simpa [h] using hStop)

/-- Going down passes only candidates that are not nearer than the pivot. -/
theorem Parted.scanDown (h : Parted n i j r) : Parted n i (scanDown r k j) r := by
  induction j with
  | zero => exact h
  | succ j ih =>
      rw [Ranking.scanDown]
      split
      · rename_i hOther
        rw [Bool.and_eq_true, Bool.not_eq_true', not_less_iff] at hOther
        refine ih ⟨h.nearer, fun k hk hkn => ?_⟩
        rcases Nat.lt_or_eq_of_le (Nat.succ_le_of_lt hk) with hk | rfl
        · exact h.others k hk hkn
        · exact hOther.2
      · exact h

/-- The two scans never cross by more than one place, as each stops at what the other has passed. -/
theorem le_scanDown (hij : i ≤ j + 1) : i ≤ scanDown r i j + 1 := by
  induction j with
  | zero => exact hij
  | succ j ih =>
      rw [scanDown]
      split
      · rename_i hOther
        rw [Bool.and_eq_true, decide_eq_true_eq] at hOther
        exact ih hOther.1
      · exact hij

/-- Where going down stops before the start stands a candidate of the nearer part. -/
theorem distanceAt_scanDown_lt (hi : 0 < i) (h : i ≤ scanDown r i j) :
    distanceAt r (scanDown r i j) < distanceAt r 0 := by
  induction j with
  | zero => exact absurd (hi.trans_le h) (Nat.lt_irrefl 0)
  | succ j ih =>
      rw [scanDown] at h ⊢
      split at h
      · rename_i hOther
        rw [if_pos hOther]
        exact ih h
      · rename_i hStop
        rw [if_neg hStop]
        exact less_iff.mp (by simpa [h] using hStop)

/-- Two candidates on the wrong sides are exchanged. -/
theorem Parted.swap (h : Parted n i j r) (hi : 0 < i) (hij : i < j) (hn : j < r.size)
    (hLeft : distanceAt r 0 ≤ distanceAt r i) (hRight : distanceAt r j < distanceAt r 0) :
    Parted n (i + 1) (j - 1) (swap r i j) := by
  have hSwap := distanceAt_swap (r := r) (i := i) (j := j) (by omega) hn
  have hPivot : distanceAt (Ranking.swap r i j) 0 = distanceAt r 0 := by
    rw [hSwap, if_neg (by omega), if_neg (by omega)]
  refine ⟨fun k hk hki => ?_, fun k hjk hkn => ?_⟩
  · rw [hPivot, hSwap]
    split
    · exact hRight
    · rw [if_neg (by omega)]
      exact h.nearer k hk (by omega)
  · rw [hPivot, hSwap, if_neg (by omega)]
    split
    · exact hLeft
    · exact h.others k (by omega) hkn

/-- In the end the nearer candidates stand up to one place and the others behind it. -/
theorem partitionFrom_spec (h : Parted n i j r) (hi : 0 < i) (hij : i ≤ j + 1) (hj : j < n)
    (hn : n ≤ r.size) :
    Shuffled 1 n r (partitionFrom r i j).1 ∧
      Parted n ((partitionFrom r i j).2 + 1) (partitionFrom r i j).2 (partitionFrom r i j).1 := by
  fun_induction partitionFrom r i j with
  | case1 r i j hCross ih =>
      have hUp := le_scanUp r i j
      have hDown := scanDown_le r (scanUp r i j) j
      have hLeft := le_distanceAt_scanUp (hCross.trans hDown)
      have hRight := distanceAt_scanDown_lt (hi.trans_le hUp) hCross
      have hParted : Parted n (scanUp r i j) (scanDown r (scanUp r i j) j) r := h.scanUp.scanDown
      generalize scanDown r (scanUp r i j) j = j' at *
      generalize scanUp r i j = i' at *
      have hApart : i' ≠ j' := by
        rintro rfl
        exact hRight.not_ge hLeft
      have hSwapped := hParted.swap (by omega) (by omega) (by omega) hLeft hRight
      obtain ⟨hShuffled, hEnd⟩ := ih hSwapped (by omega) (by omega) (by omega) (by rwa [size_swap])
      have hSwap : Shuffled 1 n r (swap r i' j') :=
        shuffled_swap (by omega) (by omega) (by omega) (by omega)
      exact ⟨hSwap.trans hShuffled, hEnd⟩
  | case2 r i j hCross =>
      have hMeet := le_scanDown (r := r) (scanUp_le (r := r) hij)
      have hParted : Parted n (scanUp r i j) (scanDown r (scanUp r i j) j) r := h.scanUp.scanDown
      refine ⟨Shuffled.refl 1 n r, ?_⟩
      rwa [show scanDown r (scanUp r i j) j + 1 = scanUp r i j by omega]

/-- The pivot stands in its place: what comes before it is nearer, what comes after it is not. -/
structure Divided (n middle : Nat) (r : Ranking) : Prop where
  nearer : ∀ k < middle, distanceAt r k < distanceAt r middle
  others : ∀ k, middle < k → k < n → distanceAt r middle ≤ distanceAt r k

/-- The pivot changes places with the last of the nearer candidates. -/
theorem Parted.divided (h : Parted n (k + 1) k r) (hk : k < n) (hn : n ≤ r.size) :
    Divided n k (Ranking.swap r k 0) := by
  have hSwap := distanceAt_swap (r := r) (i := k) (j := 0) (by omega) (by omega)
  refine ⟨fun l hl => ?_, fun l hkl hln => ?_⟩
  · rw [hSwap, hSwap k, if_pos rfl, if_neg hl.ne]
    split
    · exact h.nearer k (by omega) (Nat.lt_succ_self k)
    · exact h.nearer l (by omega) (by omega)
  · rw [hSwap, hSwap, if_pos rfl, if_neg hkl.ne', if_neg (by omega)]
    exact h.others l hkl hln

/-- A division scans and exchanges from both ends, and puts the pivot between the parts. -/
theorem partition_eq (n : Nat) (r : Ranking) (pivot : Nat) :
    (partition n r pivot).middle = (partitionFrom (swap r 0 pivot) 1 (n - 1)).2 ∧
      (partition n r pivot).ranking =
        swap (partitionFrom (swap r 0 pivot) 1 (n - 1)).1
          (partitionFrom (swap r 0 pivot) 1 (n - 1)).2 0 := by
  rw [partitionFrom.eq_def (swap r 0 pivot), partition]
  dsimp only
  split <;> exact ⟨rfl, rfl⟩

/-- Dividing exchanges candidates of the first `n` places, and leaves the pivot in the middle with
the nearer ones to its left. -/
theorem partition_spec {pivot : Nat} (hPivot : pivot < n) (hn : n ≤ r.size) :
    Shuffled 0 n r (partition n r pivot).ranking ∧
      Divided n (partition n r pivot).middle (partition n r pivot).ranking := by
  obtain ⟨hMiddle, hRanking⟩ := partition_eq n r pivot
  have hFirst : Shuffled 0 n r (swap r 0 pivot) :=
    shuffled_swap le_rfl (by omega) (Nat.zero_le pivot) hPivot
  have hParted : Parted n 1 (n - 1) (swap r 0 pivot) := ⟨by omega, by omega⟩
  obtain ⟨hShuffled, hEnd⟩ := partitionFrom_spec hParted Nat.one_pos (by omega) (by omega)
    (by rwa [hFirst.size_eq])
  have hLe := middle_partition_le n r pivot
  rw [hMiddle] at hLe
  rw [hRanking, hMiddle]
  have hAll := hFirst.trans (hShuffled.mono (Nat.zero_le 1) le_rfl)
  refine ⟨hAll.trans (shuffled_swap (Nat.zero_le _) (by omega) le_rfl (by omega)), ?_⟩
  exact hEnd.divided (by omega) (by rwa [hAll.size_eq])

end partition

section settle

/-- Whatever is tried before a division, only candidates are exchanged, the pivot is one of the
places, and success is told of a sorted ranking only. -/
theorem prepare_spec (hn : 12 < n) (hSize : n ≤ r.size) (balanced partitioned : Bool) :
    Shuffled 0 n r (prepare balanced partitioned n r).ranking ∧
      (prepare balanced partitioned n r).pivot < n ∧
      ((prepare balanced partitioned n r).sorted = true →
        Sorted n (prepare balanced partitioned n r).ranking) := by
  have hPatterns : Shuffled 0 n r (if balanced then r else breakPatterns n r) := by
    split
    · exact Shuffled.refl 0 n r
    · exact shuffled_breakPatterns (by omega) r
  rw [prepare]
  dsimp only
  generalize (if balanced then r else breakPatterns n r) = mixed at *
  have hPivot := choosePivot_lt (n := n) (by omega) mixed
  generalize choosePivot n mixed = chosen at *
  have hTurned : Shuffled 0 n mixed
      (if chosen.2 = .decreasing then reverse mixed 0 (n - 1) else mixed) := by
    split
    · exact shuffled_reverse (by omega) mixed 0
    · exact Shuffled.refl 0 n mixed
  have hPlace : (if chosen.2 = .decreasing then n - 1 - chosen.1 else chosen.1) < n := by
    split <;> omega
  have hSoFar := hPatterns.trans hTurned
  split
  · obtain ⟨hRepair, hSorted⟩ := repair_spec (i := 1) (n := n)
      (r := if chosen.2 = .decreasing then reverse mixed 0 (n - 1) else mixed)
      (fun i j hij hj => by rw [show i = j by omega]) Nat.one_pos (by omega)
      (by rwa [hSoFar.size_eq]) 5
    exact ⟨hSoFar.trans hRepair, hPlace, hSorted⟩
  · exact ⟨hSoFar, hPlace, nofun⟩

/-- When the left part has a least candidate in the first place, so has the whole. -/
theorem Divided.least {middle : Nat} (h : Divided n middle r) (hShuffled : Shuffled 0 middle r r')
    (hLeast : Least middle r') : Least n r' := by
  have hMiddle : distanceAt r' middle = distanceAt r middle :=
    hShuffled.distanceAt_eq (Or.inr le_rfl)
  have hFirst : distanceAt r' 0 ≤ distanceAt r middle := by
    rcases Nat.eq_zero_or_pos middle with hZero | hPos
    · rw [← hMiddle, hZero]
    · exact hShuffled.forall_distanceAt (P := (· ≤ distanceAt r middle))
        (fun k _ hk => (h.nearer k hk).le) le_rfl hPos
  intro k hk
  rcases Nat.lt_trichotomy k middle with hLess | rfl | hMore
  · exact hLeast k hLess
  · rwa [hMiddle]
  · rw [hShuffled.distanceAt_eq (Or.inr hMore.le)]
    exact hFirst.trans (h.others k hMore hk)

/-- After a division, only the left part has to be settled. -/
theorem least_of_division {settled : Ranking} {balanced partitioned : Bool} (hMany : 12 < n)
    (hn : n ≤ r.size)
    (hLeft :
      let prepared := prepare balanced partitioned n r
      let division := partition n prepared.ranking prepared.pivot
      division.middle ≤ division.ranking.size →
        Shuffled 0 division.middle division.ranking settled ∧ Least division.middle settled) :
    Shuffled 0 n r settled ∧ Least n settled := by
  obtain ⟨hPrepared, hPivot, -⟩ := prepare_spec hMany hn balanced partitioned
  obtain ⟨hParted, hDivided⟩ := partition_spec hPivot (by rwa [hPrepared.size_eq])
  have hBefore := hPrepared.trans hParted
  have hMiddle := middle_partition_le n (prepare balanced partitioned n r).ranking
    (prepare balanced partitioned n r).pivot
  obtain ⟨hSettled, hLeast⟩ := hLeft (by rw [hBefore.size_eq]; omega)
  exact ⟨hBefore.trans (hSettled.mono le_rfl (by omega)), hDivided.least hSettled hLeast⟩

/-- However the candidates lie, only those in the first `n` places are moved, and a nearest one of them
comes first. -/
theorem settle_spec (hn : n ≤ r.size) (limit : Nat) (balanced partitioned : Bool) :
    Shuffled 0 n r (settle limit balanced partitioned n r) ∧
      Least n (settle limit balanced partitioned n r) := by
  fun_induction settle limit balanced partitioned n r with
  | case1 limit balanced partitioned n r hFew =>
      exact ⟨shuffled_insertionSort n r, (sorted_insertionSort hn).least⟩
  | case2 balanced partitioned n r hMany =>
      exact ⟨shuffled_heapSort n r, (sorted_heapSort hn).least⟩
  | case3 limit balanced partitioned n r hMany hLimit prepared hSorted =>
      obtain ⟨hPrepared, -, hDone⟩ := prepare_spec (by omega) hn balanced partitioned
      exact ⟨hPrepared, (hDone hSorted).least⟩
  | case4 limit balanced partitioned n r hMany hLimit prepared hSorted division left hLess ih =>
      exact least_of_division (by omega) hn ih
  | case5 limit balanced partitioned n r hMany hLimit prepared hSorted division left hLess ih =>
      exact least_of_division (by omega) hn ih

theorem first?_nil : first? [] = none := by
  rw [first?, List.length_nil, settle, if_pos (Nat.zero_le 12)]
  rfl

/-- What is ranked first is one of the candidates, and none of them is nearer. -/
theorem first?_spec {ranks : List Rank} (h : ranks ≠ []) :
    ∃ best ∈ ranks, first? ranks = some best ∧ ∀ rank ∈ ranks, best.distance ≤ rank.distance := by
  obtain ⟨hShuffled, hLeast⟩ := settle_spec (r := ranks.toArray) (n := ranks.length)
    (List.size_toArray ▸ le_rfl) (ranks.length.log2 + 1) true true
  have hListed : ∀ (i : Nat) (hi : i < ranks.length), ranks.toArray[i]? = some ranks[i] := by
    intro i hi
    rw [List.getElem?_toArray, List.getElem?_eq_getElem hi]
  obtain ⟨j, -, hj, hFirst⟩ := hShuffled.exists_getElem?_eq le_rfl (List.length_pos_iff.mpr h)
  have hBest := hFirst.trans (hListed j hj)
  refine ⟨ranks[j], List.getElem_mem hj, hBest, fun rank hRank => ?_⟩
  obtain ⟨i, hi, rfl⟩ := List.getElem_of_mem hRank
  rw [← distanceAt_of_getElem? (hListed i hi), ← distanceAt_of_getElem? hBest]
  exact hShuffled.symm.forall_distanceAt (P := (distanceAt _ 0 ≤ ·)) (fun k _ hk => hLeast k hk)
    (Nat.zero_le i) hi

end settle

end Ranking

end Runsheet
