import Mathlib.Data.List.Flatten
import Runsheet.Proofs.Suggestion.Distance
import Runsheet.Proofs.Suggestion.Ranking
import Runsheet.Proofs.Text.Utf8

/-! Which of the candidates is offered for a name. Case folding works on code points, so that a target
abbreviates a candidate exactly when its folded code points are a subsequence of the folded ones of the
candidate: the comparison of the lengths in bytes that comes first refuses no such pair. -/
namespace Runsheet

section folding

/-- Every range of the table keeps its small forms off the surrogates and below the last code point. -/
theorem caseRanges_small : ∀ r ∈ caseRanges, 0 ≤ (r.low : Int) + r.shift ∧
    ((r.high : Int) + r.shift < 0xd800 ∨
      (0xdfff < (r.low : Int) + r.shift ∧ (r.high : Int) + r.shift < 0x110000)) := by
  decide +kernel

/-- The small form of a code point is a code point. -/
theorem isValidChar_lowerCode {code : Nat} (h : code.isValidChar) : (lowerCode code).isValidChar := by
  rw [lowerCode]
  split
  · rename_i r hFound
    have hBounds := caseRanges_small r (List.mem_of_find?_eq_some hFound)
    have hHolds := List.find?_some hFound
    rw [CaseRange.holds, Bool.and_eq_true, Bool.and_eq_true, decide_eq_true_eq,
      decide_eq_true_eq] at hHolds
    have hLow : 0 ≤ (code : Int) + r.shift := by omega
    have hValid : ((code : Int) + r.shift).toNat < 0xd800 ∨
        (0xdfff < ((code : Int) + r.shift).toNat ∧
          ((code : Int) + r.shift).toNat < 0x110000) := by omega
    exact hValid
  · exact h

/-- Every rune has a code point that is a character, a stray byte that of the replacement character.
-/
theorem Rune.isValidChar_code (r : Rune) : r.code.isValidChar := by
  cases r with
  | char c => exact isValidChar_toNat c
  | invalid b =>
      have hReplacement : Nat.isValidChar 0xfffd := by decide
      exact hReplacement

namespace Text

def folded (t : Text) : List Nat := t.codes.map lowerCode

theorem lower_eq (t : Text) :
    t.lower = t.folded.flatMap fun code => String.utf8EncodeChar (Char.ofNat code) := by
  simp only [lower, ofRunes, folded, codes, List.flatMap_map, Rune.bytes]

/-- Folding works code point by code point. Stray bytes fold to the replacement character, which is
then written out in full. -/
theorem codes_lower (t : Text) : t.lower.codes = t.folded := by
  have hChars : t.lower = (t.folded.map Char.ofNat).flatMap String.utf8EncodeChar := by
    rw [lower_eq, List.flatMap_map]
  rw [codes, hChars, runes_encodings, List.map_map, List.map_map, folded, codes, List.map_map,
    List.map_map, List.map_map]
  apply List.map_congr_left
  intro r _
  exact toNat_ofNat_of_isValidChar (isValidChar_lowerCode r.isValidChar_code)

/-- Fewer code points in the same order take up fewer bytes, so that a subsequence is never the
longer text. -/
theorem length_lower_le {s t : Text} (h : s.folded.Sublist t.folded) :
    s.lower.length ≤ t.lower.length := by
  rw [lower_eq, lower_eq]
  exact (h.flatMap _).length_le

end Text

end folding

namespace Suggestion

/-- A candidate contains a target up to case: the code points of the target, folded, stand in the
candidate in this order. -/
def Contains (candidate target : Text) : Prop := target.folded.Sublist candidate.folded

variable {target c : Text} {candidates : List Text}

/-- The test on lengths that comes first is implied by the test on code points, so a target
abbreviates a candidate exactly when the candidate contains it. -/
theorem abbreviates_iff : abbreviates target c = true ↔ Contains c target := by
  have hTarget : target.lower.runes.map Rune.code = target.folded := Text.codes_lower target
  have hCandidate : c.lower.runes.map Rune.code = c.folded := Text.codes_lower c
  rw [abbreviates, Bool.and_eq_true, decide_eq_true_eq, List.isSublist_iff_sublist, hTarget,
    hCandidate, Contains]
  exact and_iff_right_of_imp Text.length_lower_le

/-- The earliest candidate at the least distance: those before it are farther off, and none behind it
is nearer. -/
def Earliest (target : Text) (candidates : List Text) (c : Text) : Prop :=
  ∃ before after, candidates = before ++ c :: after ∧
    (∀ d ∈ before, distance target c < distance target d) ∧
    ∀ d ∈ after, distance target c ≤ distance target d

theorem Earliest.mem (h : Earliest target candidates c) : c ∈ candidates := by
  obtain ⟨before, after, rfl, -, -⟩ := h
  simp

theorem Earliest.le (h : Earliest target candidates c) :
    ∀ d ∈ candidates, distance target c ≤ distance target d := by
  obtain ⟨before, after, rfl, hBefore, hAfter⟩ := h
  intro d hd
  rw [List.mem_append, List.mem_cons] at hd
  rcases hd with hd | rfl | hd
  · exact (hBefore d hd).le
  · exact le_rfl
  · exact hAfter d hd

section nearest

/-- The search for a nearest candidate fails only when there are no candidates. -/
theorem nearest?_eq_none_iff : nearest? target candidates = none ↔ candidates = [] := by
  cases candidates with
  | nil => simp [nearest?]
  | cons c rest =>
      rw [nearest?]
      split
      · split <;> simp
      · simp

/-- What is found is the earliest candidate at the least distance. -/
theorem earliest_of_nearest? (h : nearest? target candidates = some c) :
    Earliest target candidates c := by
  induction candidates generalizing c with
  | nil => simp [nearest?] at h
  | cons first rest ih =>
      rw [nearest?] at h
      split at h
      · rename_i best hBest
        obtain ⟨before, after, hRest, hBefore, hAfter⟩ := ih hBest
        split at h
        · rename_i hCloser
          obtain rfl := Option.some.inj h
          refine ⟨first :: before, after, by rw [hRest, List.cons_append], ?_, hAfter⟩
          intro d hd
          rcases List.mem_cons.mp hd with rfl | hd
          · exact hCloser
          · exact hBefore d hd
        · rename_i hFarther
          obtain rfl := Option.some.inj h
          refine ⟨[], rest, rfl, by simp, ?_⟩
          intro d hd
          have hLeast := (ih hBest).le d hd
          omega
      · rename_i hNone
        obtain rfl := Option.some.inj h
        obtain rfl := nearest?_eq_none_iff.mp hNone
        exact ⟨[], [], rfl, by simp, by simp⟩

theorem exists_nearest? (target : Text) (h : candidates ≠ []) :
    ∃ c, nearest? target candidates = some c := by
  cases hFound : nearest? target candidates with
  | none => exact absurd (nearest?_eq_none_iff.mp hFound) h
  | some c => exact ⟨c, rfl⟩

end nearest

section closest

theorem abbreviated_eq_nil (hNone : ∀ c ∈ candidates, ¬ Contains c target) :
    candidates.filter (abbreviates target) = [] := by
  rw [List.filter_eq_nil_iff]
  intro c hc
  rw [abbreviates_iff]
  exact hNone c hc

/-- Without a candidate that contains the target there is nothing to rank. -/
theorem bestMatch?_eq_none (hNone : ∀ c ∈ candidates, ¬ Contains c target) :
    bestMatch? target candidates = none := by
  rw [bestMatch?, abbreviated_eq_nil hNone, List.map_nil, Ranking.first?_nil]
  rfl

/-- Of the candidates that contain the target, a nearest one is found. -/
theorem exists_bestMatch? (h : ∃ c ∈ candidates, Contains c target) :
    ∃ best ∈ candidates, bestMatch? target candidates = some best ∧ Contains best target ∧
      ∀ c ∈ candidates, Contains c target → distance target best ≤ distance target c := by
  obtain ⟨c, hc, hContains⟩ := h
  have hSome : (candidates.filter (abbreviates target)).map
      (fun c => (⟨c, distance target c⟩ : Rank)) ≠ [] :=
    List.ne_nil_of_mem (List.mem_map_of_mem (List.mem_filter.mpr ⟨hc, abbreviates_iff.mpr hContains⟩))
  obtain ⟨rank, hRank, hFirst, hLeast⟩ := Ranking.first?_spec hSome
  obtain ⟨best, hBest, rfl⟩ := List.mem_map.mp hRank
  obtain ⟨hMem, hAbbreviates⟩ := List.mem_filter.mp hBest
  refine ⟨best, hMem, by rw [bestMatch?, hFirst]; rfl, abbreviates_iff.mp hAbbreviates, ?_⟩
  intro d hd hOther
  exact hLeast _ (List.mem_map_of_mem (List.mem_filter.mpr ⟨hd, abbreviates_iff.mpr hOther⟩))

/-- A match among the candidates that contain the target is offered whatever its distance. -/
theorem closest_of_bestMatch? (hTarget : target ≠ []) (h : bestMatch? target candidates = some c) :
    closest target candidates = c := by
  rw [closest, if_neg (by simp [hTarget]), h]

/-- When no candidate contains the target, the nearest of all is offered, provided that it is near
enough. -/
theorem closest_of_none (hTarget : target ≠ []) (hNone : ∀ c ∈ candidates, ¬ Contains c target) :
    closest target candidates = match nearest? target candidates with
      | some best => if distance target best ≤ tolerance then best else []
      | none => [] := by
  have hNothing := bestMatch?_eq_none hNone
  rw [closest, if_neg (by simp [hTarget])]
  cases nearest? target candidates with
  | none => simp only [hNothing]
  | some best => simp only [hNothing]

/-- Among candidates that contain the target the ranking decides: one of them is offered, and none
of them is nearer. -/
theorem closest_contains (hTarget : target ≠ []) (h : ∃ c ∈ candidates, Contains c target) :
    closest target candidates ∈ candidates ∧ Contains (closest target candidates) target ∧
      ∀ c ∈ candidates, Contains c target →
        distance target (closest target candidates) ≤ distance target c := by
  obtain ⟨best, hMem, hBest, hContains, hLeast⟩ := exists_bestMatch? h
  rw [closest_of_bestMatch? hTarget hBest]
  exact ⟨hMem, hContains, hLeast⟩

/-- All but the first of these are equally near. The earliest of them is not what is offered, since so
many are not kept in their order. -/
example : closest "x" ["xaa", "xa", "xb", "xc", "xd", "xe", "xf", "xg", "xh", "xi", "xj", "xk", "xl"] =
    "xf" := by
  decide +kernel

/-- What is offered is a candidate. -/
theorem closest_mem (h : closest target candidates ≠ []) : closest target candidates ∈ candidates := by
  by_cases hTarget : target = []
  · subst hTarget
    exact absurd rfl h
  by_cases hContained : ∃ c ∈ candidates, Contains c target
  · exact (closest_contains hTarget hContained).1
  · push Not at hContained
    rw [closest_of_none hTarget hContained] at h ⊢
    split at h
    · rename_i best hBest
      split at h
      · rename_i hNear
        rw [if_pos hNear]
        exact (earliest_of_nearest? hBest).mem
      · exact absurd rfl h
    · exact absurd rfl h

/-- Failing those, a nearest candidate within the tolerance is offered, and of several at one
distance the one that was declared first. -/
theorem closest_earliest (hTarget : target ≠ []) (hNone : ∀ c ∈ candidates, ¬ Contains c target)
    (h : ∃ c ∈ candidates, distance target c ≤ 2) :
    Earliest target candidates (closest target candidates) := by
  obtain ⟨c, hc, hNear⟩ := h
  obtain ⟨best, hBest⟩ := exists_nearest? target (List.ne_nil_of_mem hc)
  have hEarliest := earliest_of_nearest? hBest
  have hTolerable : distance target best ≤ tolerance := (hEarliest.le c hc).trans hNear
  rw [closest_of_none hTarget hNone, hBest]
  dsimp only
  rwa [if_pos hTolerable]

/-- Nothing is offered when every candidate is too far off. Candidates that contain the target are
never too far off. -/
theorem closest_eq_nil (hTarget : target ≠ []) (hNone : ∀ c ∈ candidates, ¬ Contains c target)
    (h : ∀ c ∈ candidates, 2 < distance target c) : closest target candidates = [] := by
  rw [closest_of_none hTarget hNone]
  split
  · rename_i best hBest
    have hFar := h best (earliest_of_nearest? hBest).mem
    rw [if_neg]
    rw [tolerance]
    omega
  · rfl

/-- What is offered for a name is the best there is: one of the least distance among the candidates that
contain it, else the earliest candidate of the least distance if that is at most two, else nothing. The
distance is the least number of insertions, deletions and substitutions of a code point. -/
theorem closest_optimal (target : Text) (hTarget : target ≠ []) (candidates : List Text) :
    ((∃ c ∈ candidates, Contains c target) →
      closest target candidates ∈ candidates ∧ Contains (closest target candidates) target ∧
        ∀ c ∈ candidates, Contains c target →
          distance target (closest target candidates) ≤ distance target c) ∧
    ((∀ c ∈ candidates, ¬ Contains c target) →
      ((∃ c ∈ candidates, distance target c ≤ 2) →
        Earliest target candidates (closest target candidates)) ∧
      ((∀ c ∈ candidates, 2 < distance target c) → closest target candidates = [])) ∧
    ∀ s t : Text, IsLeast {n | Edits s.codes t.codes n} (distance s t) := by
  refine ⟨closest_contains hTarget, ?_, isLeast_distance⟩
  intro hNone
  exact ⟨closest_earliest hTarget hNone, closest_eq_nil hTarget hNone⟩

/-- No known name contains the misspelt one, and the last of three is the nearest. -/
theorem closest_optimal_tabel :
    ("tabel" : Text) ≠ [] ∧ (∀ c ∈ (["drum", "table", "label"] : List Text), ¬ Contains c "tabel") ∧
      Earliest "tabel" ["drum", "table", "label"] "label" := by
  have hTarget : ("tabel" : Text) ≠ [] := by decide
  have hNone : ∀ c ∈ (["drum", "table", "label"] : List Text), ¬ Contains c "tabel" := by
    simp only [← abbreviates_iff]
    decide +kernel
  have hNear : ∃ c ∈ (["drum", "table", "label"] : List Text), distance "tabel" c ≤ 2 := by
    decide +kernel
  have hOffered : closest "tabel" ["drum", "table", "label"] = "label" := by decide +kernel
  have hEarliest := ((closest_optimal "tabel" hTarget ["drum", "table", "label"]).2.1 hNone).1 hNear
  rw [hOffered] at hEarliest
  exact ⟨hTarget, hNone, hEarliest⟩

end closest

end Suggestion

end Runsheet
