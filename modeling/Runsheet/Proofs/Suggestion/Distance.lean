import Mathlib.Data.List.Infix
import Mathlib.Order.Bounds.Defs
import Runsheet.Suggestion

/-! The distance of two texts is the least number of edits that turn the code points of one into those
of the other. It is computed a row at a time, with an entry for every suffix of the second list; that no
sequence of edits is shorter follows from what a single edit can change, wherever it is made. -/
namespace Runsheet

/-- The code points of a text, with the replacement character for every stray byte. -/
def Text.codes (t : Text) : List Nat := t.runes.map Rune.code

namespace Suggestion

/-- One edit: at some place a code point is put in, taken out, or replaced by another. -/
inductive Edit : List Nat → List Nat → Prop
  | insert (before after : List Nat) (x : Nat) : Edit (before ++ after) (before ++ x :: after)
  | delete (before after : List Nat) (x : Nat) : Edit (before ++ x :: after) (before ++ after)
  | substitute (before after : List Nat) (x y : Nat) :
      Edit (before ++ x :: after) (before ++ y :: after)

/-- Exactly so many edits, one after the other. -/
inductive Edits : List Nat → List Nat → Nat → Prop
  | refl (xs : List Nat) : Edits xs xs 0
  | cons {xs ys zs : List Nat} {n : Nat} (first : Edit xs ys) (rest : Edits ys zs n) :
      Edits xs zs (n + 1)

variable {xs ys zs : List Nat} {x y n : Nat}

section paths

/-- An edit behind one more code point is an edit of the whole. -/
theorem Edit.cons (x : Nat) (h : Edit xs ys) : Edit (x :: xs) (x :: ys) := by
  cases h with
  | insert before after y => exact .insert (x :: before) after y
  | delete before after y => exact .delete (x :: before) after y
  | substitute before after y z => exact .substitute (x :: before) after y z

/-- What is done behind a code point leaves it alone. -/
theorem Edits.context (x : Nat) (h : Edits xs ys n) : Edits (x :: xs) (x :: ys) n := by
  induction h with
  | refl xs => exact .refl _
  | cons first _ ih => exact .cons (first.cons x) ih

end paths

/-- The fewest edits, by recursion on both lists. -/
def fewest : List Nat → List Nat → Nat
  | [], ys => ys.length
  | x :: xs, [] => xs.length + 1
  | x :: xs, y :: ys =>
    min (min (fewest (x :: xs) ys + 1) (fewest xs (y :: ys) + 1))
      (fewest xs ys + if x = y then 0 else 1)
termination_by xs ys => xs.length + ys.length

section recursion

@[simp] theorem fewest_nil_left (ys : List Nat) : fewest [] ys = ys.length := by
  rw [fewest]

@[simp] theorem fewest_nil_right (xs : List Nat) : fewest xs [] = xs.length := by
  cases xs <;> simp [fewest]

/-- The recursion that the table of distances follows: delete, insert, or change the first code
point, which is free if it stays. -/
theorem fewest_cons_cons (x y : Nat) (xs ys : List Nat) :
    fewest (x :: xs) (y :: ys) =
      min (min (fewest (x :: xs) ys + 1) (fewest xs (y :: ys) + 1))
        (fewest xs ys + if x = y then 0 else 1) := by
  rw [fewest]

theorem fewest_self (xs : List Nat) : fewest xs xs = 0 := by
  induction xs with
  | nil => simp
  | cons x xs ih => simp [fewest_cons_cons, ih]

/-- An insertion changes the number by at most one. -/
theorem fewest_le_insert (xs : List Nat) (y : Nat) (ys : List Nat) :
    fewest xs (y :: ys) ≤ fewest xs ys + 1 := by
  cases xs with
  | nil => simp
  | cons x xs =>
      rw [fewest_cons_cons]
      omega

/-- A deletion changes the number by at most one. -/
theorem fewest_le_delete (x : Nat) (xs ys : List Nat) :
    fewest (x :: xs) ys ≤ fewest xs ys + 1 := by
  cases ys with
  | nil => simp
  | cons y ys =>
      rw [fewest_cons_cons]
      omega

end recursion

section rows

/-- The table lists the suffixes of a word, the whole word first, so that its head is the distance
to the word. -/
theorem headD_map_tails (f : List Nat → Nat) (ys : List Nat) : (ys.tails.map f).headD 0 = f ys := by
  cases ys <;> simp

/-- The first row: a suffix takes as many insertions as it is long. -/
theorem distances_nil (ys : List Nat) : distances [] ys = ys.tails.map (fewest []) := by
  induction ys with
  | nil => simp [distances]
  | cons y ys ih =>
      rw [distances] at ih ⊢
      rw [List.length_cons, List.range_succ, List.reverse_append, ih]
      simp

/-- The row of a word gives that of the word with one more code point in front. -/
theorem distancesCons_tails (x : Nat) (xs ys : List Nat) :
    distancesCons x ys (ys.tails.map (fewest xs)) = ys.tails.map (fewest (x :: xs)) := by
  induction ys with
  | nil => simp [distancesCons]
  | cons y ys ih =>
      have hShorter := headD_map_tails (fewest (x :: xs)) ys
      have hSuffix := headD_map_tails (fewest xs) ys
      rw [List.tails_cons, List.map_cons, List.map_cons, fewest_cons_cons, distancesCons,
        List.tail_cons, ih, List.headD_cons, hShorter, hSuffix]

/-- A row has an entry for every suffix, which is the fewest edits that lead to it. -/
theorem distances_eq (xs ys : List Nat) : distances xs ys = ys.tails.map (fewest xs) := by
  induction xs with
  | nil => exact distances_nil ys
  | cons x xs ih => rw [distances, ih, distancesCons_tails]

/-- The table computes the distance of the recursion, from shorter suffixes to longer ones. -/
theorem distance_eq (s t : Text) : distance s t = fewest s.codes t.codes := by
  rw [distance, distances_eq, headD_map_tails, Text.codes, Text.codes]

end rows

section least

/-- There are that many edits from one list to the other. -/
theorem edits_fewest (xs ys : List Nat) : Edits xs ys (fewest xs ys) := by
  induction xs, ys using fewest.induct with
  | case1 ys =>
      rw [fewest_nil_left]
      induction ys with
      | nil => exact .refl _
      | cons y ys ih => exact .cons (.insert [] [] y) (ih.context y)
  | case2 x xs =>
      rw [fewest_nil_right]
      induction xs generalizing x with
      | nil => exact .cons (.delete [] [] x) (.refl _)
      | cons x' xs ih => exact .cons (.delete [] (x' :: xs) x) (ih x')
  | case3 x xs y ys hInsert hDelete hBoth =>
      have hFirst : Edits (x :: xs) (y :: ys) (fewest (x :: xs) ys + 1) :=
        .cons (.insert [] (x :: xs) y) (hInsert.context y)
      have hSecond : Edits (x :: xs) (y :: ys) (fewest xs (y :: ys) + 1) :=
        .cons (.delete [] xs x) hDelete
      have hThird : Edits (x :: xs) (y :: ys) (fewest xs ys + if x = y then 0 else 1) := by
        split
        · rename_i hSame
          subst hSame
          exact hBoth.context x
        · exact .cons (.substitute [] xs x y) (hBoth.context y)
      rw [fewest_cons_cons]
      rcases Nat.le_total (min (fewest (x :: xs) ys + 1) (fewest xs (y :: ys) + 1))
        (fewest xs ys + if x = y then 0 else 1) with hOuter | hOuter
      · rw [Nat.min_eq_left hOuter]
        rcases Nat.le_total (fewest (x :: xs) ys + 1) (fewest xs (y :: ys) + 1) with h | h
        · rwa [Nat.min_eq_left h]
        · rwa [Nat.min_eq_right h]
      · rwa [Nat.min_eq_right hOuter]

/-- One edit brings a list nearer to another by one at most. -/
def Near (xs ys : List Nat) : Prop := ∀ zs, fewest xs zs ≤ fewest ys zs + 1

theorem near_insert (x : Nat) (xs : List Nat) : Near xs (x :: xs) := by
  intro zs
  induction zs with
  | nil =>
      rw [fewest_nil_right, fewest_nil_right, List.length_cons]
      omega
  | cons z zs ih =>
      have hSuffix := fewest_le_insert xs z zs
      rw [fewest_cons_cons]
      omega

/-- Changing one code point changes the distance to anything by one at most. -/
theorem near_substitute (x y : Nat) (xs : List Nat) : Near (x :: xs) (y :: xs) := by
  intro zs
  induction zs with
  | nil => simp
  | cons z zs ih =>
      rw [fewest_cons_cons, fewest_cons_cons]
      split <;> split <;> omega

/-- The same code point in front of both lists makes no difference. -/
theorem Near.cons (x : Nat) (h : Near xs ys) : Near (x :: xs) (x :: ys) := by
  intro zs
  induction zs with
  | nil =>
      have hEmpty := h []
      simp only [fewest_nil_right] at hEmpty
      simpa using hEmpty
  | cons z zs ih =>
      have hSame := h zs
      have hMore := h (z :: zs)
      rw [fewest_cons_cons, fewest_cons_cons]
      omega

/-- What an edit does at the end of a word it does behind any beginning. -/
theorem Near.append (before : List Nat) (h : Near xs ys) : Near (before ++ xs) (before ++ ys) := by
  induction before with
  | nil => exact h
  | cons x before ih => exact ih.cons x

/-- No edit makes a difference of more than one, so that as many edits as the distance says are
needed. -/
theorem near_of_edit (h : Edit xs ys) : Near xs ys := by
  cases h with
  | insert before after x => exact (near_insert x after).append before
  | delete before after x => exact Near.append before fun zs => fewest_le_delete x after zs
  | substitute before after x y => exact (near_substitute x y after).append before

/-- However a word is edited into another, it takes at least as many edits as the distance. By
induction on the edits. -/
theorem fewest_le (h : Edits xs ys n) : fewest xs ys ≤ n := by
  induction h with
  | refl xs => exact (fewest_self xs).le
  | @cons xs ys zs n first rest ih =>
      have hStep := near_of_edit first zs
      omega

/-- The distance is the least number of edits between the code points of two texts. -/
theorem isLeast_distance (s t : Text) : IsLeast {n | Edits s.codes t.codes n} (distance s t) := by
  rw [distance_eq]
  exact ⟨edits_fewest s.codes t.codes, fun _ h => fewest_le h⟩

end least

end Suggestion

end Runsheet
