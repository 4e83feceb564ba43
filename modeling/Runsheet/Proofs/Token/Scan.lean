import Runsheet.Token.Scan

/-! What every scan gives: one end token, and before it tokens of other kinds. A scan is a loop that
asks for one token after the other; what one call keeps holds wherever a token is read. -/
namespace Runsheet

namespace Cursor

theorem tokens_of_end {c c' : Cursor} {t : Token} (h : c.next = (t, c')) (ht : t.kind = .eof) :
    c.tokens = ⟨[], t⟩ := by
  rw [tokens]
  split
  rename_i t₁ c₁ hNext
  obtain ⟨rfl, rfl⟩ := Prod.mk.inj (hNext.symm.trans h)
  rw [dif_pos ht]

theorem tokens_of_next {c c' : Cursor} {t : Token} (h : c.next = (t, c')) (ht : t.kind ≠ .eof) :
    c.tokens = ⟨t :: c'.tokens.body, c'.tokens.eof⟩ := by
  rw [tokens]
  split
  rename_i t₁ c₁ hNext
  obtain ⟨rfl, rfl⟩ := Prod.mk.inj (hNext.symm.trans h)
  rw [dif_neg ht]

/-- Induction over the tokens from a cursor on. -/
theorem tokens_induction {motive : Cursor → Prop}
    (step : ∀ c, (∀ t c', c.next = (t, c') → t.kind ≠ .eof → motive c') → motive c) (c : Cursor) :
    motive c := by
  induction hLength : c.rest.length using Nat.strongRecOn generalizing c with
  | ind length ih =>
      refine step c fun t c' hNext ht => ih _ ?_ c' rfl
      rw [← hLength]
      exact next_rest_lt hNext ht

/-- The last token is the end token, and no other is. -/
theorem kinds_tokens (c : Cursor) :
    c.tokens.eof.kind = .eof ∧ ∀ t ∈ c.tokens.body, t.kind ≠ .eof := by
  induction c using tokens_induction with
  | step c ih =>
      cases hNext : c.next with
      | mk t c' =>
          by_cases ht : t.kind = .eof
          · rw [tokens_of_end hNext ht]
            exact ⟨ht, by simp⟩
          · obtain ⟨hEof, hBody⟩ := ih t c' hNext ht
            rw [tokens_of_next hNext ht]
            refine ⟨hEof, fun u hu => ?_⟩
            rcases List.mem_cons.mp hu with rfl | hu
            · exact ht
            · exact hBody u hu

/-- Asking for tokens until the end token comes gives these. -/
inductive Collects : Cursor → List Token → Prop
  | last {c c' : Cursor} {t : Token} (h : c.next = (t, c')) (ht : t.kind = .eof) : Collects c [t]
  | more {c c' : Cursor} {t : Token} {ts : List Token} (h : c.next = (t, c')) (ht : t.kind ≠ .eof)
      (hRest : Collects c' ts) : Collects c (t :: ts)

theorem toList_of_end {c c' : Cursor} {t : Token} (h : c.next = (t, c')) (ht : t.kind = .eof) :
    c.tokens.toList = [t] := by
  rw [tokens_of_end h ht]
  rfl

theorem toList_of_next {c c' : Cursor} {t : Token} (h : c.next = (t, c')) (ht : t.kind ≠ .eof) :
    c.tokens.toList = t :: c'.tokens.toList := by
  rw [tokens_of_next h ht]
  rfl

/-- The loop ends from every cursor, and with the tokens of the scan. -/
theorem collects_iff (c : Cursor) (ts : List Token) : c.Collects ts ↔ ts = c.tokens.toList := by
  constructor
  · intro h
    induction h with
    | last h ht => exact (toList_of_end h ht).symm
    | more h ht hRest ih => rw [toList_of_next h ht, ih]
  · rintro rfl
    induction c using tokens_induction with
    | step c ih =>
        cases hNext : c.next with
        | mk t c' =>
            by_cases ht : t.kind = .eof
            · rw [toList_of_end hNext ht]
              exact .last hNext ht
            · rw [toList_of_next hNext ht]
              exact .more hNext ht (ih t c' hNext ht)

/-- Every token is read at a cursor that keeps to what each call before it kept to. -/
theorem exists_of_mem_tokens {Keeps : Cursor → Prop}
    (hStep : ∀ c, Keeps c → c.next.1.kind ≠ .eof → Keeps c.next.2) {c : Cursor} (hStart : Keeps c)
    {t : Token} (ht : t ∈ c.tokens.toList) : ∃ d, Keeps d ∧ d.next.1 = t := by
  induction c using tokens_induction with
  | step c ih =>
      cases hNext : c.next with
      | mk u c' =>
          by_cases hu : u.kind = .eof
          · rw [toList_of_end hNext hu, List.mem_singleton] at ht
            exact ⟨c, hStart, by rw [hNext, ht]⟩
          · rw [toList_of_next hNext hu] at ht
            rcases List.mem_cons.mp ht with rfl | ht
            · exact ⟨c, hStart, by rw [hNext]⟩
            · have hKeeps := hStep c hStart (by rwa [hNext])
              rw [hNext] at hKeeps
              exact ih u c' hNext hu hKeeps ht

end Cursor

theorem Tokens.kind_eof (source : Text) : (Tokens.ofSource source).eof.kind = .eof :=
  (Cursor.kinds_tokens _).1

end Runsheet
