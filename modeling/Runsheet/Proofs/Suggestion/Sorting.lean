import Mathlib.Logic.Equiv.Basic
import Mathlib.Order.Nat
import Runsheet.Suggestion.Ranking

/-! Rankings under exchanges. Every routine only exchanges candidates, and of those only some that lie
between two places, so what holds of all candidates there holds of them afterwards. Insertion and the
heap leave the first places in order of their distances. -/
namespace Runsheet

namespace Ranking

variable {r r' r'' : Ranking} {a b i j k n : Nat}

/-- A ranking that comes from another by exchanging candidates in the places from `a` up to `b`. -/
structure Shuffled (a b : Nat) (r r' : Ranking) : Prop where
  size_eq : r'.size = r.size
  places : ∃ σ : Equiv.Perm Nat, (∀ k, σ k ≠ k → a ≤ k ∧ k < b) ∧ ∀ k, r'[k]? = r[σ k]?

namespace Shuffled

theorem refl (a b : Nat) (r : Ranking) : Shuffled a b r r :=
  ⟨rfl, Equiv.refl Nat, fun _ h => absurd rfl h, fun _ => rfl⟩

/-- Exchanges between the same two places can follow each other. -/
theorem trans (h : Shuffled a b r r') (h' : Shuffled a b r' r'') : Shuffled a b r r'' := by
  obtain ⟨hSize, σ, hσ, hPlaces⟩ := h
  obtain ⟨hSize', τ, hτ, hPlaces'⟩ := h'
  refine ⟨hSize'.trans hSize, τ.trans σ, fun k hMoved => ?_, fun k => ?_⟩
  · by_cases hFixed : τ k = k
    · exact hσ k (by rwa [Equiv.trans_apply, hFixed] at hMoved)
    · exact hτ k hFixed
  · rw [hPlaces', hPlaces, Equiv.trans_apply]

/-- They can be taken back, so that what holds afterwards held before. -/
theorem symm (h : Shuffled a b r r') : Shuffled a b r' r := by
  obtain ⟨hSize, σ, hσ, hPlaces⟩ := h
  refine ⟨hSize.symm, σ.symm, fun k hMoved => hσ k fun hFixed => hMoved ?_, fun k => ?_⟩
  · rw [Equiv.symm_apply_eq, hFixed]
  · rw [hPlaces, Equiv.apply_symm_apply]

/-- Exchanges within some places are exchanges within more. -/
theorem mono {a' b' : Nat} (h : Shuffled a b r r') (ha : a' ≤ a) (hb : b ≤ b') :
    Shuffled a' b' r r' := by
  obtain ⟨hSize, σ, hσ, hPlaces⟩ := h
  refine ⟨hSize, σ, fun k hMoved => ?_, hPlaces⟩
  have := hσ k hMoved
  omega

/-- A place outside keeps its candidate. -/
theorem getElem?_eq (h : Shuffled a b r r') (hk : k < a ∨ b ≤ k) : r'[k]? = r[k]? := by
  obtain ⟨-, σ, hσ, hPlaces⟩ := h
  have hFixed : σ k = k := by
    by_contra hMoved
    have := hσ k hMoved
    omega
  rw [hPlaces, hFixed]

/-- A place inside has a candidate from inside. -/
theorem exists_getElem?_eq (h : Shuffled a b r r') (ha : a ≤ k) (hb : k < b) :
    ∃ j, a ≤ j ∧ j < b ∧ r'[k]? = r[j]? := by
  obtain ⟨-, σ, hσ, hPlaces⟩ := h
  by_cases hFixed : σ k = k
  · exact ⟨k, ha, hb, by rw [hPlaces, hFixed]⟩
  · obtain ⟨ha', hb'⟩ := hσ (σ k) fun hAgain => hFixed (σ.injective hAgain)
    exact ⟨σ k, ha', hb', hPlaces k⟩

theorem distanceAt_eq (h : Shuffled a b r r') (hk : k < a ∨ b ≤ k) :
    distanceAt r' k = distanceAt r k := by
  rw [distanceAt, distanceAt, h.getElem?_eq hk]

/-- What holds of all distances inside still does. -/
theorem forall_distanceAt {P : Nat → Prop} (h : Shuffled a b r r')
    (hP : ∀ k, a ≤ k → k < b → P (distanceAt r k)) (ha : a ≤ k) (hb : k < b) :
    P (distanceAt r' k) := by
  obtain ⟨j, ha', hb', hPlace⟩ := h.exists_getElem?_eq ha hb
  rw [distanceAt, hPlace]
  exact hP j ha' hb'

end Shuffled

@[simp] theorem size_swap (r : Ranking) (i j : Nat) : (swap r i j).size = r.size :=
  Array.size_swapIfInBounds

theorem getElem?_swap (hi : i < r.size) (hj : j < r.size) (k : Nat) :
    (swap r i j)[k]? = r[Equiv.swap i j k]? := by
  rw [swap, Array.swapIfInBounds_def, dif_pos hi, dif_pos hj, Array.getElem?_swap,
    Equiv.swap_apply_def]
  by_cases hki : k = i
  · subst hki
    by_cases hjk : j = k <;> simp [hjk, hj, hi]
  · by_cases hkj : k = j
    · subst hkj
      simp [hki, hi]
    · rw [if_neg (Ne.symm hkj), if_neg (Ne.symm hki), if_neg hki, if_neg hkj]

/-- An exchange of two places that are there exchanges their distances and changes no other. -/
theorem distanceAt_swap (hi : i < r.size) (hj : j < r.size) (k : Nat) :
    distanceAt (swap r i j) k =
      if k = i then distanceAt r j else if k = j then distanceAt r i else distanceAt r k := by
  rw [distanceAt, getElem?_swap hi hj, Equiv.swap_apply_def]
  split
  · rfl
  · split <;> rfl

/-- An exchange of two places inside is one of the exchanges that are allowed. A place that is not
there makes it none at all. -/
theorem shuffled_swap (ha : a ≤ i) (hi : i < b) (ha' : a ≤ j) (hj : j < b) :
    Shuffled a b r (swap r i j) := by
  by_cases hBounds : i < r.size ∧ j < r.size
  · refine ⟨size_swap r i j, Equiv.swap i j, fun k hMoved => ?_, getElem?_swap hBounds.1 hBounds.2⟩
    have hPlace : k = i ∨ k = j := by
      by_contra hNeither
      rw [not_or] at hNeither
      exact hMoved (Equiv.swap_apply_of_ne_of_ne hNeither.1 hNeither.2)
    omega
  · have hSame : swap r i j = r := by
      rw [swap, Array.swapIfInBounds_def]
      split
      · rename_i hi
        rw [dif_neg fun hj => hBounds ⟨hi, hj⟩]
      · rfl
    rw [hSame]
    exact Shuffled.refl a b r

theorem distanceAt_of_getElem? {rank : Rank} (h : r[i]? = some rank) :
    distanceAt r i = rank.distance := by
  rw [distanceAt, h]
  rfl

theorem less_iff : less r i j = true ↔ distanceAt r i < distanceAt r j := decide_eq_true_iff

theorem not_less_iff : less r i j = false ↔ distanceAt r j ≤ distanceAt r i := by
  rw [← Bool.not_eq_true, less_iff, Nat.not_lt]

/-- The candidates in the first `n` places stand in order of their distances. -/
def Sorted (n : Nat) (r : Ranking) : Prop :=
  ∀ i j, i ≤ j → j < n → distanceAt r i ≤ distanceAt r j

/-- Nothing in the first `n` places is nearer than the candidate in the first. -/
def Least (n : Nat) (r : Ranking) : Prop := ∀ i < n, distanceAt r 0 ≤ distanceAt r i

theorem Sorted.least (h : Sorted n r) : Least n r := fun i hi => h 0 i (Nat.zero_le i) hi

/-- Places that are in order stay so, whatever is exchanged behind them. -/
theorem Sorted.of_shuffled (h : Sorted i r) (hShuffled : Shuffled i n r r') : Sorted i r' := by
  intro j k hjk hk
  rw [hShuffled.distanceAt_eq (Or.inl (by omega)), hShuffled.distanceAt_eq (Or.inl hk)]
  exact h j k hjk hk

section insertion

/-- A candidate that moves to the left only passes places before its own. -/
theorem shuffled_moveLeft (hi : i < b) (r : Ranking) : Shuffled 0 b r (moveLeft r i) := by
  induction i generalizing r with
  | zero => exact Shuffled.refl 0 b r
  | succ i ih =>
      rw [moveLeft]
      split
      · exact (shuffled_swap (Nat.zero_le _) hi (Nat.zero_le _) (by omega)).trans (ih (by omega) _)
      · exact Shuffled.refl 0 b r

/-- The first `n` places are in order but for one, whose candidate is not farther off than any behind
it. -/
structure SortedBut (n i : Nat) (r : Ranking) : Prop where
  others : ∀ j k, j ≤ k → k < n → j ≠ i → k ≠ i → distanceAt r j ≤ distanceAt r k
  behind : ∀ k, i ≤ k → k < n → distanceAt r i ≤ distanceAt r k

/-- A candidate that has come to the first place, and is not farther off than any behind it, is in
order there. -/
theorem SortedBut.zero (h : SortedBut n 0 r) : Sorted n r := by
  intro j k hjk hk
  by_cases hj : j = 0
  · subst hj
    exact h.behind k hjk hk
  · exact h.others j k hjk hk hj (by omega)

/-- The candidate in that place moves to the left as long as the one before it is farther off. -/
theorem SortedBut.swap (h : SortedBut n (i + 1) r) (hi : i + 1 < n) (hn : n ≤ r.size)
    (hLess : distanceAt r (i + 1) < distanceAt r i) : SortedBut n i (swap r (i + 1) i) := by
  have hSwap := distanceAt_swap (r := r) (i := i + 1) (j := i) (by omega) (by omega)
  refine ⟨fun j k hjk hk hj hki => ?_, fun k hik hk => ?_⟩
  · rw [hSwap, hSwap, if_neg hj, if_neg hki]
    split
    · split
      · exact le_rfl
      · exact h.others i k (by omega) hk (by omega) (by omega)
    · split
      · exact h.others j i (by omega) (by omega) (by omega) (by omega)
      · exact h.others j k hjk hk (by omega) (by omega)
  · rw [hSwap, hSwap, if_neg (by omega), if_pos rfl]
    split
    · exact hLess.le
    · split
      · exact le_rfl
      · exact h.behind k (by omega) hk

/-- It stops in order. -/
theorem SortedBut.stop (h : SortedBut n (i + 1) r)
    (hLess : distanceAt r i ≤ distanceAt r (i + 1)) : Sorted n r := by
  intro j k hjk hk
  by_cases hj : j = i + 1
  · subst hj
    exact h.behind k hjk hk
  · by_cases hki : k = i + 1
    · subst hki
      exact (h.others j i (by omega) (by omega) hj (by omega)).trans hLess
    · exact h.others j k hjk hk hj hki

/-- A candidate is moved until the one before it is not farther off, or to the first place. By
induction on the place. -/
theorem sorted_moveLeft (h : SortedBut n i r) (hi : i < n) (hn : n ≤ r.size) :
    Sorted n (moveLeft r i) := by
  induction i generalizing r with
  | zero => exact h.zero
  | succ i ih =>
      rw [moveLeft]
      split
      · rename_i hLess
        exact ih (h.swap hi hn (less_iff.mp hLess)) (by omega) (by rwa [size_swap])
      · rename_i hLess
        exact h.stop (not_less_iff.mp (by simpa using hLess))

/-- The candidate behind the first places is moved to where it belongs. -/
theorem Sorted.moveLeft (h : Sorted n r) (hn : n < r.size) : Sorted (n + 1) (moveLeft r n) := by
  refine sorted_moveLeft ⟨fun j k hjk hk hj hkn => h j k hjk (by omega), fun k hnk hk => ?_⟩
    (Nat.lt_succ_self n) hn
  obtain rfl : k = n := by omega
  exact le_rfl

/-- Insertion only exchanges candidates of the first places. -/
theorem shuffled_insertionSort (n : Nat) (r : Ranking) : Shuffled 0 n r (insertionSort n r) := by
  induction n with
  | zero => exact Shuffled.refl 0 0 r
  | succ n ih =>
      rw [insertionSort]
      exact (ih.mono le_rfl (Nat.le_succ n)).trans (shuffled_moveLeft (Nat.lt_succ_self n) _)

/-- One more candidate is inserted into those in order, until all are. By induction on their number.
-/
theorem sorted_insertionSort (hn : n ≤ r.size) : Sorted n (insertionSort n r) := by
  induction n with
  | zero => exact fun _ _ _ hj => absurd hj (Nat.not_lt_zero _)
  | succ n ih =>
      rw [insertionSort]
      exact (ih (by omega)).moveLeft (by rwa [(shuffled_insertionSort n r).size_eq])

end insertion

section heap

variable {root : Nat}

def IsChild (c p : Nat) : Prop := c = 2 * p + 1 ∨ c = 2 * p + 2

theorem IsChild.lt {c p : Nat} (h : IsChild c p) : p < c := by
  unfold IsChild at h
  omega

/-- From the place `a` on, no candidate in the heap of the first `n` places is farther off than the one
above it. -/
def Heaped (a n : Nat) (r : Ranking) : Prop :=
  ∀ p c, a ≤ p → IsChild c p → c < n → distanceAt r c ≤ distanceAt r p

/-- The same but for the candidate in one place, whose children do not exceed what is above it. -/
structure HeapedBut (a n root : Nat) (r : Ranking) : Prop where
  others : ∀ p c, a ≤ p → p ≠ root → IsChild c p → c < n → distanceAt r c ≤ distanceAt r p
  above : ∀ p c, a ≤ p → IsChild root p → IsChild c root → c < n → distanceAt r c ≤ distanceAt r p

theorem isChild_fartherChild (n : Nat) (r : Ranking) (root : Nat) :
    IsChild (fartherChild n r root) root := by
  rcases fartherChild_eq n r root with h | ⟨h, -⟩
  · exact Or.inl h
  · exact Or.inr h

/-- If there is a child at all, the chosen one is there. -/
theorem fartherChild_lt (h : 2 * root + 1 < n) : fartherChild n r root < n := by
  have := fartherChild_eq n r root
  omega

/-- No child is farther off than the one that is chosen. -/
theorem le_fartherChild {c : Nat} (h : IsChild c root) (hc : c < n) :
    distanceAt r c ≤ distanceAt r (fartherChild n r root) := by
  rw [fartherChild]
  split
  · rename_i hFarther
    rw [Bool.and_eq_true, less_iff] at hFarther
    rcases h with rfl | rfl
    · exact hFarther.2.le
    · exact le_rfl
  · rename_i hNearer
    rcases h with rfl | rfl
    · exact le_rfl
    · rw [Bool.and_eq_true, decide_eq_true_eq, less_iff] at hNearer
      exact Nat.not_lt.mp fun hLess => hNearer ⟨hc, hLess⟩

/-- A candidate sinks to its farther child. -/
theorem HeapedBut.swap (h : HeapedBut a n root r) (ha : a ≤ root) (hRoot : 2 * root + 1 < n)
    (hn : n ≤ r.size) (hLess : distanceAt r root < distanceAt r (fartherChild n r root)) :
    HeapedBut a n (fartherChild n r root) (swap r root (fartherChild n r root)) := by
  have hChild := isChild_fartherChild n r root
  have hBound := fartherChild_lt (r := r) hRoot
  have hFarther : ∀ c, IsChild c root → c < n →
      distanceAt r c ≤ distanceAt r (fartherChild n r root) := fun c => le_fartherChild
  generalize fartherChild n r root = f at *
  have hSwap := distanceAt_swap (r := r) (i := root) (j := f) (by omega) (by omega)
  have hUp : ∀ p, IsChild f p → p = root := fun p hp => by
    unfold IsChild at hp hChild
    omega
  refine ⟨fun p c hp hpf hc hcn => ?_, fun p c hp hf hc hcn => ?_⟩
  · rw [hSwap, hSwap, if_neg hpf]
    by_cases hpRoot : p = root
    · subst hpRoot
      rw [if_neg hc.lt.ne', if_pos rfl]
      split
      · exact hLess.le
      · exact hFarther c hc hcn
    · have hcf : c ≠ f := by
        rintro rfl
        exact hpRoot (hUp p hc)
      rw [if_neg hpRoot, if_neg hcf]
      split
      · rename_i hcRoot
        exact h.above p f hp (hcRoot ▸ hc) hChild hBound
      · exact h.others p c hp hpRoot hc hcn
  · obtain rfl := hUp p hf
    have hpf := hf.lt
    have hfc := hc.lt
    rw [hSwap, hSwap, if_neg (by omega), if_neg (by omega), if_pos rfl]
    exact h.others f c (by omega) (by omega) hc hcn

/-- It stops where no child is farther off. -/
theorem HeapedBut.stop (h : HeapedBut a n root r)
    (hStop : ∀ c, IsChild c root → c < n → distanceAt r c ≤ distanceAt r root) : Heaped a n r := by
  intro p c hp hc hcn
  by_cases hpRoot : p = root
  · subst hpRoot
    exact hStop c hc hcn
  · exact h.others p c hp hpRoot hc hcn

/-- A candidate sinks until no child is farther off; what it passes moves up by one. By induction
along the recursion. -/
theorem heaped_siftDown (h : HeapedBut a n root r) (ha : a ≤ root) (hn : n ≤ r.size) :
    Heaped a n (siftDown n r root) := by
  fun_induction siftDown n r root with
  | case1 r root hRoot hLess ih =>
      have hFarther := fartherChild_eq n r root
      exact ih (h.swap ha hRoot hn (less_iff.mp hLess)) (by omega) (by rwa [size_swap])
  | case2 r root hRoot hLess =>
      refine h.stop fun c hc hcn => (le_fartherChild hc hcn).trans ?_
      exact not_less_iff.mp (by simpa using hLess)
  | case3 r root hRoot =>
      refine h.stop fun c hc hcn => ?_
      unfold IsChild at hc
      omega

/-- Sinking stays inside of the heap. -/
theorem shuffled_siftDown (n : Nat) (r : Ranking) (root : Nat) :
    Shuffled 0 n r (siftDown n r root) := by
  fun_induction siftDown n r root with
  | case1 r root hChild hLess ih =>
      have hFarther := fartherChild_lt (r := r) hChild
      exact (shuffled_swap (Nat.zero_le _) (by omega) (Nat.zero_le _) hFarther).trans ih
  | case2 r root => exact Shuffled.refl 0 n r
  | case3 r root => exact Shuffled.refl 0 n r

/-- One place more becomes part of the heap. -/
theorem Heaped.siftDown (h : Heaped (a + 1) n r) (hn : n ≤ r.size) : Heaped a n (siftDown n r a) := by
  refine heaped_siftDown ⟨fun p c hp hpa => h p c (by omega), fun p c hp ha => ?_⟩ le_rfl hn
  unfold IsChild at ha
  omega

theorem shuffled_heapify (n root : Nat) (r : Ranking) : Shuffled 0 n r (heapify n root r) := by
  induction root generalizing r with
  | zero => exact shuffled_siftDown n r 0
  | succ root ih => exact (shuffled_siftDown n r (root + 1)).trans (ih _)

/-- From the last place with a child down to the first, each place joins a heap that begins behind
it. -/
theorem heaped_heapify (h : Heaped (root + 1) n r) (hn : n ≤ r.size) :
    Heaped 0 n (heapify n root r) := by
  induction root generalizing r with
  | zero => exact h.siftDown hn
  | succ root ih =>
      refine ih (h.siftDown hn) ?_
      rwa [(shuffled_siftDown n r (root + 1)).size_eq]

/-- The candidate on top of a heap is the farthest. -/
theorem Heaped.le_top (h : Heaped 0 n r) (hi : i < n) : distanceAt r i ≤ distanceAt r 0 := by
  induction i using Nat.strongRecOn with
  | ind i ih =>
      by_cases hTop : i = 0
      · rw [hTop]
      · have hAbove : (i - 1) / 2 < i := by omega
        have hChild : IsChild i ((i - 1) / 2) := by
          unfold IsChild
          omega
        exact (h _ i (Nat.zero_le _) hChild hi).trans (ih _ hAbove (by omega))

/-- From the place `n` on up to `m`, no candidate is nearer than any before it. -/
def SortedFrom (n m : Nat) (r : Ranking) : Prop :=
  ∀ i j, i ≤ j → n ≤ j → j < m → distanceAt r i ≤ distanceAt r j

/-- What is in order at the end stays so while the places before are exchanged, for none of them
exceeds it. -/
theorem SortedFrom.of_shuffled {m : Nat} (h : SortedFrom n m r) (hShuffled : Shuffled 0 n r r') :
    SortedFrom n m r' := by
  intro i j hij hnj hj
  rw [hShuffled.distanceAt_eq (Or.inr hnj)]
  by_cases hi : i < n
  · exact hShuffled.forall_distanceAt (P := (· ≤ distanceAt r j))
      (fun k _ hk => h k j (by omega) hnj hj) (Nat.zero_le i) hi
  · rw [hShuffled.distanceAt_eq (Or.inr (by omega))]
    exact h i j hij hnj hj

/-- The first of some places changes with the last. -/
theorem shuffled_swap_last (n : Nat) (r : Ranking) : Shuffled 0 (n + 1) r (swap r 0 n) :=
  shuffled_swap le_rfl (Nat.succ_pos n) (Nat.zero_le n) (Nat.lt_succ_self n)

/-- The top of a heap comes to stand behind the rest of it. -/
theorem SortedFrom.swap {m : Nat} (h : SortedFrom (n + 1) m r) (hHeap : Heaped 0 (n + 1) r)
    (hn : n < r.size) : SortedFrom n m (swap r 0 n) := by
  have hSwapped := h.of_shuffled (shuffled_swap_last n r)
  have hTop : ∀ k, 0 ≤ k → k < n + 1 → distanceAt r k ≤ distanceAt r 0 := fun k _ hk =>
    hHeap.le_top hk
  intro i j hij hnj hj
  by_cases hjn : j = n
  · subst hjn
    have hLast : distanceAt (Ranking.swap r 0 j) j = distanceAt r 0 := by
      rw [distanceAt_swap (by omega) hn]
      split
      · rename_i hZero
        rw [hZero]
      · rw [if_pos rfl]
    rw [hLast]
    exact (shuffled_swap_last j r).forall_distanceAt (P := (· ≤ distanceAt r 0)) hTop
      (Nat.zero_le i) (by omega)
  · exact hSwapped i j hij (by omega) hj

/-- Without its top, and with the last candidate there instead, a heap is in order below. -/
theorem Heaped.swap (h : Heaped 0 (n + 1) r) (hn : n < r.size) : Heaped 1 n (swap r 0 n) := by
  intro p c hp hc hcn
  have hpc := hc.lt
  have hSwap := distanceAt_swap (r := r) (i := 0) (j := n) (by omega) hn
  rw [hSwap, hSwap, if_neg (by omega), if_neg (by omega), if_neg (by omega), if_neg (by omega)]
  exact h p c (Nat.zero_le p) hc (by omega)

theorem shuffled_unheap (n : Nat) (r : Ranking) : Shuffled 0 n r (unheap n r) := by
  induction n generalizing r with
  | zero => exact Shuffled.refl 0 0 r
  | succ n ih =>
      have hRest := (shuffled_siftDown n (swap r 0 n) 0).trans (ih _)
      exact (shuffled_swap_last n r).trans (hRest.mono le_rfl (Nat.le_succ n))

/-- The heap shrinks from its end, and what was on top of it stands there in order. -/
theorem sorted_unheap {m : Nat} (h : SortedFrom n m r) (hHeap : Heaped 0 n r) (hn : n ≤ r.size) :
    Sorted m (unheap n r) := by
  induction n generalizing r with
  | zero => exact fun i j hij hj => h i j hij (Nat.zero_le j) hj
  | succ n ih =>
      have hSift := shuffled_siftDown n (swap r 0 n) 0
      have hSize : n ≤ (swap r 0 n).size := by
        rw [size_swap]
        omega
      refine ih ((h.swap hHeap hn).of_shuffled hSift) ((hHeap.swap hn).siftDown hSize) ?_
      rwa [hSift.size_eq]

theorem shuffled_heapSort (n : Nat) (r : Ranking) : Shuffled 0 n r (heapSort n r) :=
  (shuffled_heapify n _ r).trans (shuffled_unheap n _)

/-- Places without children make a heap by themselves. From there a heap of all places is made and
then taken apart from its top. -/
theorem sorted_heapSort (hn : n ≤ r.size) : Sorted n (heapSort n r) := by
  have hHeap : Heaped ((n - 1) / 2 + 1) n r := by
    intro p c hp hc hcn
    unfold IsChild at hc
    omega
  refine sorted_unheap (fun i j _ hnj hj => by omega) (heaped_heapify hHeap hn) ?_
  rwa [(shuffled_heapify n _ r).size_eq]

end heap

end Ranking

end Runsheet
