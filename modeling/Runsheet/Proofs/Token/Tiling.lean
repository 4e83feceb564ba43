import Mathlib.Logic.ExistsUnique
import Runsheet.Proofs.Token.Lexeme

/-! The tokens of a source and the gaps before them divide it. Every token stands on the bytes that it
holds, the bytes between two tokens are blanks and comments, and no byte belongs to two pieces. -/
namespace Runsheet

namespace Token

/-- The number of bytes that a token stands on: one for a sign, none for the end. -/
def width (t : Token) : Nat := if Scan.isPunctuation t.kind then 1 else t.raw.length

def stop (t : Token) : Nat := t.position.offset + t.width

/-- Each token with the offset that was reached before it. -/
def withReached : Nat → List Token → List (Nat × Token)
  | _, [] => []
  | reached, t :: ts => (reached, t) :: withReached t.stop ts

end Token

open Scan in
/-- The tokens divide the source from the offset on. -/
structure Tiling (source : Text) (offset : Nat) (tokens : List Token) : Prop where
  /-- The end token is the last one and no other, and stands at the end. -/
  ending : ∃ body eof, tokens = body ++ [eof] ∧ eof.kind = .eof ∧
    eof.position.offset = source.length ∧ ∀ t ∈ body, t.kind ≠ .eof
  /-- Only the end token stands on no bytes. -/
  solid : ∀ t ∈ tokens, t.position.offset < t.stop ↔ t.kind ≠ .eof
  bounded : ∀ t ∈ tokens, offset ≤ t.position.offset ∧ t.stop ≤ source.length
  /-- A token holds the bytes that it stands on, unless its kind tells them. -/
  text : ∀ t ∈ tokens, t.text =
    if isPunctuation t.kind ∨ t.kind = .eof then none
    else some (source.extract t.position.offset t.stop)
  sign : ∀ t ∈ tokens, isPunctuation t.kind → source[t.position.offset]? = signByte t.kind
  ordered : tokens.Pairwise fun t u => t.stop ≤ u.position.offset
  /-- What stands before a token is a gap, and the token tells whether it is empty. Only before the
  end a comment may lack its newline. -/
  gap : ∀ p ∈ Token.withReached offset tokens, offset ≤ p.1 ∧ p.1 ≤ p.2.position.offset ∧
    Gap (decide (p.2.kind = .eof)) (source.extract p.1 p.2.position.offset) ∧
    p.2.spaced = decide (p.1 < p.2.position.offset)
  /-- Every byte belongs to one token or to the gap before one. -/
  once : ∀ i, offset ≤ i → i < source.length →
    ∃! p, p ∈ Token.withReached offset tokens ∧ p.1 ≤ i ∧ i < p.2.stop

section pieces

variable {front middle rest : Text}

theorem extract_middle :
    (front ++ (middle ++ rest)).extract front.length (front.length + middle.length) = middle := by
  simp

theorem decide_ne_nil_eq (offset : Nat) (gap : Text) :
    decide (gap ≠ []) = decide (offset < offset + gap.length) := by
  simp [List.length_pos_iff]

end pieces

namespace Token

open Scan

variable {t : Token} {bytes : Text}

/-- The bytes that a token other than the end stands on. -/
inductive Spells (t : Token) : Text → Prop
  | sign {b : UInt8} (hKind : signByte t.kind = some b) (hText : t.text = none) : Spells t [b]
  | text {b : UInt8} {more : Text} (hKind : isPunctuation t.kind = false) (hEnd : t.kind ≠ .eof)
      (hText : t.text = some (b :: more)) : Spells t (b :: more)

theorem Spells.kind_ne_eof (h : t.Spells bytes) : t.kind ≠ .eof := by
  cases h with
  | sign hKind =>
      intro hEnd
      rw [hEnd] at hKind
      cases hKind
  | text _ hEnd => exact hEnd

theorem Spells.width_eq (h : t.Spells bytes) : t.width = bytes.length := by
  cases h with
  | sign hKind => rw [width, if_pos (signByte_spec hKind).1]; rfl
  | text hKind _ hText => rw [width, if_neg (by simp [hKind]), raw, hText]; rfl

theorem Spells.length_pos (h : t.Spells bytes) : 0 < bytes.length := by
  cases h <;> simp

theorem Spells.text_eq (h : t.Spells bytes) :
    t.text = if isPunctuation t.kind ∨ t.kind = .eof then none else some bytes := by
  cases h with
  | sign hKind hText => rw [if_pos (Or.inl (signByte_spec hKind).1), hText]
  | text hKind hEnd hText => rw [if_neg (by simp [hKind, hEnd]), hText]

theorem Spells.sign_eq (h : t.Spells bytes) (hKind : isPunctuation t.kind = true) :
    signByte t.kind = bytes.head? := by
  cases h with
  | sign h => exact h
  | text h => rw [h] at hKind; cases hKind

section places

variable {front after : Text}

theorem Spells.stop_eq (h : t.Spells bytes) (hOffset : t.position.offset = front.length) :
    t.stop = (front ++ bytes).length := by
  rw [stop, h.width_eq, hOffset, List.length_append]

theorem Spells.extract_eq (h : t.Spells bytes) (hOffset : t.position.offset = front.length) :
    (front ++ (bytes ++ after)).extract t.position.offset t.stop = bytes := by
  rw [h.stop_eq hOffset, hOffset, List.length_append]
  exact extract_middle

theorem Spells.getElem?_eq (h : t.Spells bytes) (hOffset : t.position.offset = front.length) :
    (front ++ (bytes ++ after))[t.position.offset]? = bytes.head? := by
  rw [hOffset, List.getElem?_append_right (Nat.le_refl _), Nat.sub_self]
  cases h <;> rfl

end places

/-- The token made of a lexeme stands on its bytes. -/
theorem spells_of_lexed {kind : TokenKind} {fault : Option ScanFault} {after : Text}
    (h : Lexed kind fault bytes after) (position : Position) (spaced : Bool) :
    Spells ⟨kind, if isPunctuation kind then none else some bytes, position, spaced, fault⟩
      bytes := by
  have hEnd := h.kind_ne_eof
  obtain ⟨b, t, rfl⟩ := h.cons
  cases h with
  | written h =>
      cases h with
      | sign h => exact .sign h (if_pos (signByte_spec h).1)
      | word h => exact .text h.kind_ne.2.2 hEnd (if_neg (by simp [h.kind_ne.2.2]))
      | string => exact .text rfl hEnd rfl
  | refused => exact .text rfl hEnd rfl

end Token

namespace Tiling

open Scan

variable {source before gap bytes after : Text} {t : Token} {ts : List Token}

/-- Only a gap is left. -/
theorem last (hSource : source = before ++ gap) (hGap : Gap true gap) (hKind : t.kind = .eof)
    (hText : t.text = none) (hOffset : t.position.offset = before.length + gap.length)
    (hSpaced : t.spaced = decide (gap ≠ [])) : Tiling source before.length [t] := by
  have hStop : t.stop = before.length + gap.length := by
    rw [Token.stop, Token.width, hKind, Token.raw, hText, hOffset]
    rfl
  have hLength : source.length = before.length + gap.length := by
    rw [hSource, List.length_append]
  have hFrom : before.length ≤ t.position.offset := by omega
  have hExtract : source.extract before.length t.position.offset = gap := by
    simp [hSource, hOffset]
  refine ⟨⟨[], t, rfl, hKind, by omega, by simp⟩, ?_, ?_, ?_, ?_, List.pairwise_singleton _ t, ?_, ?_⟩
  · simp [hStop, hOffset, hKind]
  · simp [hStop, hOffset, hLength]
  · simp [hKind, hText]
  · simp [hKind, isPunctuation]
  · simp only [Token.withReached, List.mem_singleton]
    rintro p rfl
    refine ⟨Nat.le_refl _, hFrom, ?_, ?_⟩
    · rw [hExtract, hKind]
      exact hGap
    · rw [hSpaced, hOffset, decide_ne_nil_eq before.length]
  · intro i hi hEnd
    have hHere : i < t.stop := by omega
    refine ⟨(before.length, t), ⟨List.mem_singleton_self _, hi, hHere⟩, ?_⟩
    rintro p ⟨hp, -⟩
    exact List.mem_singleton.mp hp

/-- A byte belongs to the first piece or to one after it. -/
theorem once_cons {reached : Nat} (h : Tiling source t.stop ts) {i : Nat} (hi : reached ≤ i)
    (hEnd : i < source.length) :
    ∃! p, p ∈ Token.withReached reached (t :: ts) ∧ p.1 ≤ i ∧ i < p.2.stop := by
  by_cases hHere : i < t.stop
  · refine ⟨(reached, t), ⟨List.mem_cons_self, hi, hHere⟩, ?_⟩
    rintro p ⟨hp, hFrom, -⟩
    rcases List.mem_cons.mp hp with rfl | hp
    · rfl
    · have hReached := (h.gap p hp).1
      omega
  · obtain ⟨p, ⟨hp, hFrom, hTo⟩, hUnique⟩ := h.once i (by omega) hEnd
    refine ⟨p, ⟨List.mem_cons_of_mem _ hp, hFrom, hTo⟩, ?_⟩
    rintro q ⟨hq, hqFrom, hqTo⟩
    rcases List.mem_cons.mp hq with rfl | hq
    · exact absurd hqTo hHere
    · exact hUnique q ⟨hq, hqFrom, hqTo⟩

/-- A gap, a token and what the tokens after it divide. -/
theorem cons (hSource : source = before ++ gap ++ (bytes ++ after)) (hGap : Gap false gap)
    (hSpells : t.Spells bytes) (hOffset : t.position.offset = (before ++ gap).length)
    (hSpaced : t.spaced = decide (gap ≠ []))
    (h : Tiling source (before ++ gap ++ bytes).length ts) :
    Tiling source before.length (t :: ts) := by
  have hLength : source.length = (before ++ gap ++ bytes).length + after.length := by
    rw [hSource, ← List.append_assoc, List.length_append]
  rw [← hSpells.stop_eq hOffset] at h hLength
  have hBytes : source.extract t.position.offset t.stop = bytes := by
    rw [hSource]
    exact hSpells.extract_eq hOffset
  have hFirst : source[t.position.offset]? = bytes.head? := by
    rw [hSource]
    exact hSpells.getElem?_eq hOffset
  rw [List.length_append] at hOffset
  have hBefore : source.extract before.length t.position.offset = gap := by
    rw [hSource, hOffset, List.append_assoc]
    exact extract_middle
  have hFrom : before.length ≤ t.position.offset := by omega
  have hWide : t.position.offset < t.stop := by
    have hPos := hSpells.length_pos
    rw [Token.stop, hSpells.width_eq]
    omega
  refine ⟨?_, ?_, ?_, ?_, ?_, ?_, ?_, fun i hi hEnd => h.once_cons hi hEnd⟩
  · obtain ⟨body, eof, rfl, hEof, hEnd, hBody⟩ := h.ending
    exact ⟨t :: body, eof, rfl, hEof, hEnd, List.forall_mem_cons.mpr ⟨hSpells.kind_ne_eof, hBody⟩⟩
  · exact List.forall_mem_cons.mpr ⟨⟨fun _ => hSpells.kind_ne_eof, fun _ => hWide⟩, h.solid⟩
  · refine List.forall_mem_cons.mpr ⟨⟨hFrom, by omega⟩, fun u hu => ?_⟩
    have hAfter := h.bounded u hu
    omega
  · refine List.forall_mem_cons.mpr ⟨?_, h.text⟩
    rw [hBytes]
    exact hSpells.text_eq
  · refine List.forall_mem_cons.mpr ⟨fun hKind => ?_, h.sign⟩
    rw [hFirst, hSpells.sign_eq hKind]
  · exact List.pairwise_cons.mpr ⟨fun u hu => (h.bounded u hu).1, h.ordered⟩
  · refine List.forall_mem_cons.mpr ⟨⟨Nat.le_refl _, hFrom, ?_, ?_⟩, fun p hp => ?_⟩
    · rw [hBefore, decide_eq_false hSpells.kind_ne_eof]
      exact hGap
    · rw [hSpaced, hOffset, decide_ne_nil_eq before.length]
    · obtain ⟨hReached, hRest⟩ := h.gap p hp
      exact ⟨by omega, hRest⟩

end Tiling

/-- The tokens from a cursor on divide what is left of the source. -/
theorem Cursor.tiling_tokens {source : Text} (c : Cursor) (before : Text)
    (hSource : source = before ++ c.rest) (hOffset : c.position.offset = before.length) :
    Tiling source before.length c.tokens.toList := by
  induction c using tokens_induction generalizing before with
  | step c ih =>
      have hStep := c.step_next
      cases hNext : c.next with
      | mk t c' =>
          rw [hNext] at hStep
          cases hStep with
          | last hGap =>
              rw [toList_of_end hNext rfl]
              have hPlace := Position.offset_after c.position c.rest
              exact .last hSource hGap rfl rfl (hPlace.trans (by rw [hOffset])) rfl
          | @token kind fault gap bytes after hRest hGap hLexed =>
              rw [toList_of_next hNext hLexed.kind_ne_eof]
              have hPlace : (c.position.after gap).offset = (before ++ gap).length := by
                rw [Position.offset_after, hOffset, List.length_append]
              have hAfter : ((c.position.after gap).after bytes).offset =
                  (before ++ gap ++ bytes).length := by
                rw [Position.offset_after, hPlace, ← List.length_append]
              rw [hRest, ← List.append_assoc] at hSource
              refine .cons hSource hGap (Token.spells_of_lexed hLexed _ _) hPlace rfl ?_
              rw [← List.append_assoc] at hSource
              exact ih _ _ hNext hLexed.kind_ne_eof _ hSource hAfter

/-- The scan of a source ends, and its tokens divide the source. -/
theorem Tokens.tiling_ofSource (source : Text) :
    (∀ ts, (Cursor.ofSource source).Collects ts ↔ ts = (Tokens.ofSource source).toList) ∧
      Tiling source 0 (Tokens.ofSource source).toList :=
  ⟨(Cursor.ofSource source).collects_iff, (Cursor.ofSource source).tiling_tokens [] rfl rfl⟩

end Runsheet
