import Runsheet.Proofs.Script.Spelling
import Runsheet.Proofs.Token.Lexeme

/-! How symbols may be laid out in a source, and that the scanner finds the symbols that were laid out
and no others. -/
namespace Runsheet

open Scan in
/-- Symbols laid out in a source. Only words need something else after them. -/
inductive Layout : List Symbol → Text → Prop
  | done {gap : Text} (hGap : Gap true gap) : Layout [] gap
  | next {gap bytes rest : Text} {s : Symbol} {symbols : List Symbol} (hGap : Gap false gap)
      (hSpaced : s.spaced = decide (gap ≠ [])) (hWritten : Written s.kind s.value bytes)
      (hApart : Word s.kind bytes → Apart rest) (hRest : Layout symbols rest) :
      Layout (s :: symbols) (gap ++ (bytes ++ rest))

section scan

open Scan

/-- The scanner finds the symbols that were laid out. -/
theorem Layout.scanned {symbols : List Symbol} {c : Cursor} (h : Layout symbols c.rest) :
    c.tokens.body.map Token.symbol = symbols := by
  generalize hSource : c.rest = source at h
  induction h generalizing c with
  | done hGap =>
      subst hSource
      rw [Cursor.tokens_of_end (Cursor.next_eq_of_end hGap) rfl]
      rfl
  | next hGap hSpaced hWritten hApart hRest ih =>
      have hNext := Cursor.next_eq_of_written hSource hGap hWritten hApart
      rw [Cursor.tokens_of_next hNext hWritten.kind_ne_eof, List.map_cons, ih rfl, Token.symbol,
        hWritten.value_token, ← hSpaced]

/-- Symbols that the scanner finds were laid out, unless it refuses one. -/
theorem layout_tokens (c : Cursor) (hLegal : ∀ t ∈ c.tokens.body, t.kind ≠ .illegal) :
    Layout (c.tokens.body.map Token.symbol) c.rest := by
  induction c using Cursor.tokens_induction with
  | step c ih =>
      have hStep := c.step_next
      cases hNext : c.next with
      | mk t c' =>
          rw [hNext] at hStep
          cases hStep with
          | last hGap =>
              rw [Cursor.tokens_of_end hNext rfl]
              exact .done hGap
          | @token kind fault gap bytes after hRest hGap hLexed =>
              rw [Cursor.tokens_of_next hNext hLexed.kind_ne_eof] at hLegal ⊢
              obtain ⟨-, value, hWritten, hApart⟩ :=
                hLexed.written_of_legal (hLegal _ List.mem_cons_self)
              have hMore := ih _ _ hNext hLexed.kind_ne_eof fun u hu =>
                hLegal u (List.mem_cons_of_mem _ hu)
              rw [List.map_cons, hRest, Token.symbol, hWritten.value_token]
              exact .next hGap rfl hWritten hApart hMore

end scan

end Runsheet
