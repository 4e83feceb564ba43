import Runsheet.Text

/-!
Candidates ranked by their distances. The order is that of a quicksort which breaks patterns up and
falls back on a heap sort. Candidates at one distance do not keep their order in it, so it is
followed step by step, as far as it decides which candidate comes first: what ends up to the right
of a pivot never comes back to the first place and is left as it is.
-/
namespace Runsheet

structure Rank where
  word : Text
  distance : Nat
  deriving DecidableEq, Repr

/-- Candidates in their places. -/
abbrev Ranking := Array Rank

namespace Ranking

def distanceAt (r : Ranking) (i : Nat) : Nat := (r[i]?.map Rank.distance).getD 0

def less (r : Ranking) (i j : Nat) : Bool := distanceAt r i < distanceAt r j

def swap (r : Ranking) (i j : Nat) : Ranking := r.swapIfInBounds i j

/-- Moves the candidate in a place to the left, past all that are farther off. -/
def moveLeft (r : Ranking) : Nat → Ranking
  | 0 => r
  | i + 1 => if less r (i + 1) i then moveLeft (swap r (i + 1) i) i else r

/-- Moves the candidate before a place to the right, past all in the first `n` places that are
nearer. -/
def moveRight (n : Nat) (r : Ranking) (i : Nat) : Ranking :=
  if i < n && less r i (i - 1) then moveRight n (swap r i (i - 1)) (i + 1) else r
termination_by n - i
decreasing_by simp_all; omega

/-- Sorts the first places, keeping candidates at one distance in their order. -/
def insertionSort : (n : Nat) → Ranking → Ranking
  | 0, r => r
  | n + 1, r => moveLeft (insertionSort n r) n

section heap

/-- Of the places below a place in the heap of the first `n`, the one with the farther candidate. -/
def fartherChild (n : Nat) (r : Ranking) (root : Nat) : Nat :=
  if 2 * root + 2 < n && less r (2 * root + 1) (2 * root + 2) then 2 * root + 2 else 2 * root + 1

theorem fartherChild_eq (n : Nat) (r : Ranking) (root : Nat) :
    fartherChild n r root = 2 * root + 1 ∨
      fartherChild n r root = 2 * root + 2 ∧ 2 * root + 2 < n := by
  unfold fartherChild
  split
  · simp_all
  · exact Or.inl rfl

/-- Lets a candidate sink in the heap of the first `n` places, below all that are farther off. -/
def siftDown (n : Nat) (r : Ranking) (root : Nat) : Ranking :=
  if 2 * root + 1 < n then
    if less r root (fartherChild n r root) then
      siftDown n (swap r root (fartherChild n r root)) (fartherChild n r root)
    else r
  else r
termination_by n - root
decreasing_by
  have := fartherChild_eq n r root
  omega

/-- Makes a heap of the first `n` places, from the given place down to the first. -/
def heapify (n : Nat) : (root : Nat) → Ranking → Ranking
  | 0, r => siftDown n r 0
  | root + 1, r => heapify n root (siftDown n r (root + 1))

/-- Takes the farthest candidate out of the heap of the first places again and again. -/
def unheap : (n : Nat) → Ranking → Ranking
  | 0, r => r
  | n + 1, r => unheap n (siftDown n (swap r 0 n) 0)

def heapSort (n : Nat) (r : Ranking) : Ranking := unheap n (heapify n ((n - 1) / 2) r)

end heap

section pivot

def nextRandom (x : UInt64) : UInt64 :=
  let x := x ^^^ (x <<< 13)
  let x := x ^^^ (x >>> 7)
  x ^^^ (x <<< 17)

/-- The place among the first `n` that a pseudo-random number stands for. -/
def randomPlace (n : Nat) (x : UInt64) : Nat :=
  let place := x.toNat % (1 <<< (n.log2 + 1))
  if n ≤ place then place - n else place

/-- Exchanges three places in the middle of the first `n` with random ones. -/
def breakPatterns (n : Nat) (r : Ranking) : Ranking :=
  let x := nextRandom n.toUInt64
  let y := nextRandom x
  let z := nextRandom y
  let middle := n / 4 * 2 - 1
  let r := swap r (middle - 1) (randomPlace n x)
  let r := swap r middle (randomPlace n y)
  swap r (middle + 1) (randomPlace n z)

/-- Two places, the nearer candidate's first, and the number of exchanges this took so far. -/
def ordered (r : Ranking) (x y swaps : Nat) : Nat × Nat × Nat :=
  if less r y x then (y, x, swaps + 1) else (x, y, swaps)

/-- The place in the middle of three, by distance. -/
def median (r : Ranking) (x y z swaps : Nat) : Nat × Nat :=
  let (x, y, swaps) := ordered r x y swaps
  let (y, _, swaps) := ordered r y z swaps
  let (_, y, swaps) := ordered r x y swaps
  (y, swaps)

/-- How the candidates seem to lie before they are sorted. -/
inductive Hint
  | unknown
  | increasing
  | decreasing
  deriving DecidableEq, Repr

/-- A place for a pivot among the first `n`: the median of three places or, from fifty places on, of
three such medians. The exchanges on the way give the hint. -/
def choosePivot (n : Nat) (r : Ranking) : Nat × Hint :=
  let around (x swaps : Nat) : Nat × Nat :=
    if 50 ≤ n then median r (x - 1) x (x + 1) swaps else (x, swaps)
  let (x, swaps) := around (n / 4) 0
  let (y, swaps) := around (n / 4 * 2) swaps
  let (z, swaps) := around (n / 4 * 3) swaps
  let (pivot, swaps) := median r x y z swaps
  (pivot, if swaps = 0 then .increasing else if swaps = 12 then .decreasing else .unknown)

/-- Turns the places from one to another round. -/
def reverse (r : Ranking) (i j : Nat) : Ranking :=
  if i < j then reverse (swap r i j) (i + 1) (j - 1) else r
termination_by j - i

end pivot

section repair

/-- The first place from the given one on whose candidate is nearer than the one before it, or `n`. -/
def firstDrop (n : Nat) (r : Ranking) (i : Nat) : Nat :=
  if i < n && !less r i (i - 1) then firstDrop n r (i + 1) else i
termination_by n - i
decreasing_by simp_all; omega

/-- Puts a few candidates right, in the hope that nothing else is wrong with the first `n` places, and
tells whether they are sorted now. With fewer than fifty places nothing is moved. -/
def repair (n : Nat) : (attempts i : Nat) → Ranking → Ranking × Bool
  | 0, _, r => (r, false)
  | attempts + 1, i, r =>
    let i := firstDrop n r i
    if i = n then (r, true)
    else if n < 50 then (r, false)
    else
      let r := swap r i (i - 1)
      let r := if 2 ≤ i then moveLeft r (i - 1) else r
      let r := if 2 ≤ n - i then moveRight n r (i + 1) else r
      repair n attempts i r

end repair

section partition

/-- The first place between two whose candidate is not nearer than the pivot in the first place. -/
def scanUp (r : Ranking) (i j : Nat) : Nat :=
  if i ≤ j && less r i 0 then scanUp r (i + 1) j else i
termination_by j + 1 - i
decreasing_by simp_all; omega

/-- The last place between two whose candidate is nearer than the pivot in the first place. -/
def scanDown (r : Ranking) (i : Nat) : (j : Nat) → Nat
  | 0 => 0
  | j + 1 => if i ≤ j + 1 && !less r (j + 1) 0 then scanDown r i j else j + 1

theorem le_scanUp (r : Ranking) (i j : Nat) : i ≤ scanUp r i j := by
  fun_induction scanUp r i j with
  | case1 i _ ih => omega
  | case2 => exact Nat.le_refl _

theorem scanDown_le (r : Ranking) (i j : Nat) : scanDown r i j ≤ j := by
  induction j with
  | zero => exact Nat.le_refl _
  | succ j ih =>
      rw [scanDown]
      split
      · exact Nat.le_succ_of_le ih
      · exact Nat.le_refl _

/-- Exchanges candidates between two places until those nearer than the pivot stand to the left of
the others, and tells the last place of the nearer ones. -/
def partitionFrom (r : Ranking) (i j : Nat) : Ranking × Nat :=
  if scanUp r i j ≤ scanDown r (scanUp r i j) j then
    partitionFrom (swap r (scanUp r i j) (scanDown r (scanUp r i j) j)) (scanUp r i j + 1)
      (scanDown r (scanUp r i j) j - 1)
  else (r, scanDown r (scanUp r i j) j)
termination_by j + 1 - i
decreasing_by
  have := le_scanUp r i j
  have := scanDown_le r (scanUp r i j) j
  omega

theorem partitionFrom_le (r : Ranking) (i j : Nat) : (partitionFrom r i j).2 ≤ j := by
  fun_induction partitionFrom r i j with
  | case1 r i j _ ih =>
      have := scanDown_le r (scanUp r i j) j
      omega
  | case2 r i j => exact scanDown_le r (scanUp r i j) j

/-- Places divided by a pivot in the middle, and whether they were divided already. -/
structure Division where
  ranking : Ranking
  middle : Nat
  already : Bool

/-- Divides the first `n` places by the candidate in one of them. -/
def partition (n : Nat) (r : Ranking) (pivot : Nat) : Division :=
  let r := swap r 0 pivot
  let i := scanUp r 1 (n - 1)
  let j := scanDown r i (n - 1)
  if i ≤ j then
    let (r, j) := partitionFrom (swap r i j) (i + 1) (j - 1)
    ⟨swap r j 0, j, false⟩
  else ⟨swap r j 0, j, true⟩

theorem middle_partition_le (n : Nat) (r : Ranking) (pivot : Nat) :
    (partition n r pivot).middle ≤ n - 1 := by
  simp only [partition]
  have hDown := scanDown_le (swap r 0 pivot) (scanUp (swap r 0 pivot) 1 (n - 1)) (n - 1)
  split
  · exact Nat.le_trans (partitionFrom_le _ _ _) (Nat.le_trans (Nat.sub_le _ _) hDown)
  · exact hDown

end partition

/-- Places that are ready to be divided by a pivot, unless they are sorted. -/
structure Prepared where
  ranking : Ranking
  pivot : Nat
  sorted : Bool

/-- What is done to the first `n` places before they are divided. Patterns are broken up after an
unbalanced division, and a ranking that seems to be sorted either way is put right. -/
def prepare (balanced partitioned : Bool) (n : Nat) (r : Ranking) : Prepared :=
  let r := if balanced then r else breakPatterns n r
  let (pivot, hint) := choosePivot n r
  let r := if hint = .decreasing then reverse r 0 (n - 1) else r
  let pivot := if hint = .decreasing then n - 1 - pivot else pivot
  if balanced && partitioned && hint ≠ .unknown then
    let (r, sorted) := repair n 5 1 r
    ⟨r, pivot, sorted⟩
  else ⟨r, pivot, false⟩

/-- Sorts the first `n` places as far as the first one is concerned. After so many unbalanced divisions
as the limit says, a heap sort takes over. -/
def settle (limit : Nat) (balanced partitioned : Bool) (n : Nat) (r : Ranking) : Ranking :=
  if n ≤ 12 then insertionSort n r
  else if limit = 0 then heapSort n r
  else
    let prepared := prepare balanced partitioned n r
    if prepared.sorted then prepared.ranking
    else
      let division := partition n prepared.ranking prepared.pivot
      let left := if balanced then limit else limit - 1
      if division.middle < n - division.middle then
        settle left true true division.middle division.ranking
      else
        settle left (n / 8 ≤ n - division.middle) division.already division.middle division.ranking
termination_by n
decreasing_by
  all_goals
    have := middle_partition_le n (prepare balanced partitioned n r).ranking
      (prepare balanced partitioned n r).pivot
    omega

def first? (ranks : List Rank) : Option Rank :=
  (settle (ranks.length.log2 + 1) true true ranks.length ranks.toArray)[0]?

end Ranking

end Runsheet
