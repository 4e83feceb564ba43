import Runsheet.Proofs.Text.Runes
import Runsheet.Token.Scan

/-! The place after a text. Offsets count bytes and lines count newlines, whatever bytes stand between
them: a newline is a rune of its own, also after the first bytes of a character that is cut off. -/
namespace Runsheet

namespace Rune

/-- A rune that was read holds a newline only if it is one. -/
theorem count_newline (r : Rune) (hInvalid : ∀ b, r = invalid b → 0x80 ≤ b) :
    r.bytes.count 10 = if r = char '\n' then 1 else 0 := by
  cases r with
  | invalid b =>
      have hOther : b ≠ 10 := by
        rintro rfl
        exact absurd (hInvalid 10 rfl) (by decide)
      simp [bytes, hOther]
  | char x =>
      by_cases hx : x = '\n'
      · subst hx
        rfl
      · have hNone : 10 ∉ String.utf8EncodeChar x := fun hMem =>
          hx (eq_ofNat_of_mem_encode (by decide) hMem)
        simpa [bytes, hx] using List.count_eq_zero.mpr hNone

end Rune

namespace Position

variable {p : Position}

def shift (lines bytes : Nat) (p : Position) : Position := ⟨p.line + lines, p.column, p.offset + bytes⟩

theorem line_step (p : Position) (r : Rune) (hInvalid : ∀ b, r = .invalid b → 0x80 ≤ b) :
    (p.step r).line = p.line + r.bytes.count 10 := by
  rw [step, Rune.count_newline r hInvalid]
  split <;> rfl

theorem offset_step (p : Position) (r : Rune) : (p.step r).offset = p.offset + r.bytes.length := by
  rw [step]
  split
  · rename_i h
    rw [h]
    rfl
  · rfl

/-- Lines count newlines. -/
theorem line_after (p : Position) (t : Text) : (p.after t).line = p.line + t.count 10 := by
  have hFold : ∀ rs : List Rune, (∀ b, .invalid b ∈ rs → 0x80 ≤ b) →
      (rs.foldl step p).line = p.line + (Text.ofRunes rs).count 10 := by
    intro rs hInvalid
    induction rs generalizing p with
    | nil => rfl
    | cons r rs ih =>
        have hFirst := line_step p r fun b hb => hInvalid b (hb ▸ List.mem_cons_self)
        rw [List.foldl_cons, ih _ fun b hb => hInvalid b (List.mem_cons_of_mem r hb), hFirst,
          Text.ofRunes, Text.ofRunes, List.flatMap_cons, List.count_append, Nat.add_assoc]
  rw [after, hFold t.runes fun _ => Text.le_of_invalid_mem, Text.ofRunes_runes]

/-- Offsets count bytes. -/
theorem offset_after (p : Position) (t : Text) : (p.after t).offset = p.offset + t.length := by
  have hFold : ∀ rs : List Rune,
      (rs.foldl step p).offset = p.offset + (Text.ofRunes rs).length := by
    intro rs
    induction rs generalizing p with
    | nil => rfl
    | cons r rs ih =>
        rw [List.foldl_cons, ih, offset_step, Text.ofRunes, Text.ofRunes, List.flatMap_cons,
          List.length_append, Nat.add_assoc]
  rw [after, hFold, Text.ofRunes_runes]

/-- After a newline the next line begins, and the place goes on from there. -/
theorem after_newline (p : Position) (s t : Text) :
    p.after (s ++ 10 :: t) =
      after ⟨p.line + s.count 10 + 1, 1, p.offset + s.length + 1⟩ t := by
  have hBefore : p.after (s ++ 10 :: t) = ((p.after s).step (.char '\n')).after t := by
    rw [after, Text.runes_append_ascii (by decide), List.foldl_append, List.foldl_cons]
    rfl
  rw [hBefore, step, if_pos rfl, line_after, offset_after]

/-- The place after a text depends on where the text begins only by as much. -/
theorem after_shift (lines bytes : Nat) (p : Position) (t : Text) :
    (p.shift lines bytes).after t = (p.after t).shift lines bytes := by
  rw [after, after]
  induction t.runes generalizing p with
  | nil => rfl
  | cons r rs ih =>
      have hStep : (p.shift lines bytes).step r = (p.step r).shift lines bytes := by
        simp only [step, shift]
        split
        · simp only [mk.injEq, true_and]
          omega
        · simp only [mk.injEq, true_and]
          omega
      rw [List.foldl_cons, List.foldl_cons, hStep, ih]

end Position

end Runsheet
