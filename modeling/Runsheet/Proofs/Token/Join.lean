import Runsheet.Proofs.Token.Lexeme

/-! Scanning two sources with a newline between them. The newline ends a comment and belongs to no
token, so the tokens are those of the first source and then those of the second at their places. -/
namespace Runsheet

def Token.shift (lines bytes : Nat) (t : Token) : Token :=
  { t with position := t.position.shift lines bytes }

namespace Tokens

def shift (lines bytes : Nat) (ts : Tokens) : Tokens :=
  ⟨ts.body.map (·.shift lines bytes), ts.eof.shift lines bytes⟩

/-- The tokens when something stands before the first of them that is none. -/
def spaced (ts : Tokens) : Tokens :=
  match ts.body with
  | [] => ⟨[], { ts.eof with spaced := true }⟩
  | t :: more => ⟨{ t with spaced := true } :: more, ts.eof⟩

/-- Tokens and then further tokens in place of their end. -/
def followedBy (ts us : Tokens) : Tokens := ⟨ts.body ++ us.body, us.eof⟩

end Tokens

namespace Scan

/-- A newline ends a gap, also one that could stand only at the end of a source. -/
theorem Gap.newline {atEnd : Bool} {g : Text} (h : Gap atEnd g) : Gap false (g ++ [10]) := by
  induction h with
  | nil => exact .blank rfl .nil
  | blank hb h ih => exact .blank hb ih
  | @comment _ words t hWords h ih =>
      rw [List.cons_append, List.append_assoc, List.cons_append]
      exact .comment hWords ih
  | lastComment hWords => exact .comment hWords .nil

theorem Apart.newline {rest : Text} (h : Apart rest) (t : Text) : Apart (rest ++ 10 :: t) := by
  cases rest with
  | nil => exact apart_cons rfl
  | cons b rest => exact h

end Scan

namespace Cursor

open Scan

variable {c c' : Cursor} {t : Token}

def shift (lines bytes : Nat) (c : Cursor) : Cursor := ⟨c.rest, c.position.shift lines bytes⟩

/-- The cursor when a newline and a further text come after what is left. -/
def extend (c : Cursor) (more : Text) : Cursor := ⟨c.rest ++ 10 :: more, c.position⟩

/-- The cursor at a further text, after what is left and a newline. -/
def beyond (c : Cursor) (more : Text) : Cursor :=
  ⟨more, c.position.line + c.rest.count 10 + 1, 1, c.position.offset + c.rest.length + 1⟩

theorem skip_shift (lines bytes : Nat) (c : Cursor) (n : Nat) :
    (c.shift lines bytes).skip n = (c.skip n).shift lines bytes := by
  rw [skip, shift, Position.after_shift]
  rfl

/-- The scanner does not look at places. -/
theorem next_shift (lines bytes : Nat) (c : Cursor) :
    (c.shift lines bytes).next = (c.next.1.shift lines bytes, c.next.2.shift lines bytes) := by
  have hGap : gap false (c.shift lines bytes).rest = gap false c.rest := rfl
  rw [next, next, hGap, skip_shift]
  dsimp only
  generalize c.skip (gap false c.rest) = start
  obtain ⟨rest, position⟩ := start
  cases rest with
  | nil => rfl
  | cons b rest => exact Prod.ext rfl (skip_shift lines bytes _ _)

theorem tokens_shift (lines bytes : Nat) (c : Cursor) :
    (c.shift lines bytes).tokens = c.tokens.shift lines bytes := by
  induction c using tokens_induction with
  | step c ih =>
      cases hNext : c.next with
      | mk t c' =>
          have hShift := next_shift lines bytes c
          rw [hNext] at hShift
          by_cases ht : t.kind = .eof
          · rw [tokens_of_end hNext ht, tokens_of_end hShift ht]
            rfl
          · rw [tokens_of_next hNext ht, tokens_of_next hShift ht, ih t c' hNext ht]
            rfl

theorem beyond_skip (c : Cursor) (n : Nat) (more : Text) : (c.skip n).beyond more = c.beyond more := by
  have hLine : (c.position.after (c.rest.take n)).line + (c.rest.drop n).count 10 =
      c.position.line + c.rest.count 10 := by
    rw [Position.line_after, Nat.add_assoc, ← List.count_append, List.take_append_drop]
  have hOffset : (c.position.after (c.rest.take n)).offset + (c.rest.drop n).length =
      c.position.offset + c.rest.length := by
    rw [Position.offset_after, Nat.add_assoc, ← List.length_append, List.take_append_drop]
  rw [beyond, skip, hLine, hOffset, beyond]

/-- Whatever is read, what is beyond it stays where it is. -/
theorem beyond_next (h : c.next = (t, c')) (more : Text) : c'.beyond more = c.beyond more := by
  rw [next] at h
  dsimp only at h
  split at h
  · obtain ⟨-, rfl⟩ := Prod.mk.inj h
    exact beyond_skip ..
  · obtain ⟨-, rfl⟩ := Prod.mk.inj h
    rw [beyond_skip, beyond_skip]

/-- A token that is no fault is read in the same way before a newline and more. -/
theorem next_extend (h : c.next = (t, c')) (hEnd : t.kind ≠ .eof) (hLegal : t.kind ≠ .illegal)
    (more : Text) : (c.extend more).next = (t, c'.extend more) := by
  have hStep := c.step_next
  rw [h] at hStep
  cases hStep with
  | last => exact absurd rfl hEnd
  | @token kind fault gap bytes after hRest hGap hLexed =>
      obtain ⟨rfl, value, hWritten, hApart⟩ := hLexed.written_of_legal hLegal
      have hMore : (c.extend more).rest = gap ++ (bytes ++ (after ++ 10 :: more)) := by
        simp [extend, hRest]
      exact next_eq_of_written hMore hGap hWritten fun hWord => (hApart hWord).newline more

/-- When only a gap is left, the newline belongs to it, and the scanner goes on beyond. -/
theorem next_extend_of_gap (h : Gap true c.rest) (more : Text) :
    (c.extend more).next =
      ({ (c.beyond more).next.1 with spaced := true }, (c.beyond more).next.2) := by
  have hSkip : gap false (c.rest ++ 10 :: more) = c.rest.length + 1 + gap false more := by
    simpa using @Gap.skipped false (c.rest ++ [10]) more h.newline nofun
  have hStart : (c.extend more).skip (c.rest.length + 1 + gap false more) =
      (c.beyond more).skip (gap false more) := by
    have hCount : c.rest.length + 1 + gap false more = c.rest.length + (gap false more + 1) := by omega
    rw [skip, extend, hCount, List.drop_length_add_append, List.take_length_add_append,
      List.drop_succ_cons, List.take_succ_cons, Position.after_newline]
    rfl
  have hSpaced : decide (0 < c.rest.length + 1 + gap false more) = true :=
    decide_eq_true (by omega)
  have hGap : gap false (c.extend more).rest = c.rest.length + 1 + gap false more := hSkip
  have hGap' : gap false (c.beyond more).rest = gap false more := rfl
  rw [next, next, hGap, hStart, hGap', hSpaced]
  dsimp only
  split <;> rfl

/-- Only a gap is left when no token is. -/
theorem gap_of_next (h : c.next = (t, c')) (ht : t.kind = .eof) : Gap true c.rest := by
  have hStep := c.step_next
  rw [h] at hStep
  cases hStep with
  | last hGap => exact hGap
  | token _ _ hLexed => exact absurd ht hLexed.kind_ne_eof

/-- The scanner finds the tokens of what is left, and after the newline those of what follows. -/
theorem tokens_extend (c : Cursor) (hLegal : ∀ t ∈ c.tokens.body, t.kind ≠ .illegal) (more : Text) :
    (c.extend more).tokens = c.tokens.followedBy (c.beyond more).tokens.spaced := by
  induction c using tokens_induction with
  | step c ih =>
      cases hNext : c.next with
      | mk t c' =>
          by_cases ht : t.kind = .eof
          · have hExtend := next_extend_of_gap (gap_of_next hNext ht) more
            rw [tokens_of_end hNext ht]
            cases hMore : (c.beyond more).next with
            | mk u c₁ =>
                rw [hMore] at hExtend
                by_cases hu : u.kind = .eof
                · rw [tokens_of_end hMore hu, tokens_of_end hExtend hu]
                  rfl
                · rw [tokens_of_next hMore hu, tokens_of_next hExtend hu]
                  rfl
          · rw [tokens_of_next hNext ht] at hLegal ⊢
            have hFirst := next_extend hNext ht (hLegal t List.mem_cons_self) more
            have hRest := ih t c' hNext ht fun u hu => hLegal u (List.mem_cons_of_mem t hu)
            rw [tokens_of_next hFirst ht, hRest, beyond_next hNext]
            rfl

end Cursor

/-- The tokens of two sources with a newline between them. -/
theorem Tokens.ofSource_append {first : Text}
    (hLegal : ∀ t ∈ (Tokens.ofSource first).body, t.kind ≠ .illegal) (second : Text) :
    Tokens.ofSource (first ++ 10 :: second) =
      (Tokens.ofSource first).followedBy
        ((Tokens.ofSource second).shift (first.count 10 + 1) (first.length + 1)).spaced := by
  have hBeyond : (Cursor.ofSource first).beyond second =
      (Cursor.ofSource second).shift (first.count 10 + 1) (first.length + 1) := by
    simp [Cursor.beyond, Cursor.ofSource, Cursor.shift, Position.shift, Position.start, Nat.add_assoc]
  have hTokens := (Cursor.ofSource first).tokens_extend hLegal second
  rwa [hBeyond, Cursor.tokens_shift] at hTokens

end Runsheet
