import Runsheet.Proofs.Token.Kind

/-! Layout does not change tokens. A lexeme that is no fault depends on nothing but its own bytes and
on what comes right after it, and a blank goes on with none of them. So a source can be written anew
from the bytes of its tokens with a blank between any two of them. -/
namespace Runsheet

namespace Token

open Scan

/-- The bytes of the source that a token stands on. -/
def slice (source : Text) (t : Token) : Text := source.extract t.position.offset t.stop

/-- What a token is, wherever it stands. -/
def content (t : Token) : TokenKind × Option Text × Text := (t.kind, t.text, t.value)

/-- The bytes write the token. -/
structure WrittenBy (t : Token) (bytes : Text) : Prop where
  written : Written t.kind t.value bytes
  text_eq : t.text = if isPunctuation t.kind then none else some bytes

end Token

open Scan

/-- A token of a source that is no fault is written by the bytes that it stands on. -/
theorem Tokens.writtenBy_slice {source : Text} {t : Token} (ht : t ∈ (Tokens.ofSource source).toList)
    (hEnd : t.kind ≠ .eof) (hLegal : t.kind ≠ .illegal) : t.WrittenBy (t.slice source) := by
  rcases exists_lexed ht with ⟨hKind, -⟩ | ⟨before, bytes, after, hSource, hOffset, hSpells, hLexed, -⟩
  · exact absurd hKind hEnd
  obtain ⟨-, value, hWritten, -⟩ := hLexed.written_of_legal hLegal
  have hSlice : t.slice source = bytes := by
    rw [Token.slice, hSource, hSpells.extract_eq hOffset]
  have hText : t.text = if isPunctuation t.kind then none else some bytes := by
    simpa [hEnd] using hSpells.text_eq
  have hValue : t.value = value := by
    rw [← hWritten.value_token t.position t.spaced t.fault, ← hText]
  rw [hSlice]
  exact ⟨hValue ▸ hWritten, hText⟩

/-- The end token is none but the end of the source. -/
theorem Tokens.content_eof (source : Text) :
    (Tokens.ofSource source).eof.content = (.eof, none, []) := by
  have hKind := Tokens.kind_eof source
  have hMem : (Tokens.ofSource source).eof ∈ (Tokens.ofSource source).toList :=
    List.mem_append_right _ (List.mem_singleton_self _)
  rcases exists_lexed hMem with ⟨-, hText⟩ | ⟨_, _, _, _, _, hSpells, _⟩
  · simp [Token.content, Token.value, Token.raw, hKind, hText]
  · exact absurd hKind hSpells.kind_ne_eof

/-- No word goes on with the blank before the next bytes, nor with one at the end. -/
theorem apart_blanks {last : Text} (hLast : last = [] ∨ last = [32]) (parts : List Text) :
    Apart (parts.flatMap (32 :: ·) ++ last) := by
  cases parts with
  | nil =>
      rcases hLast with rfl | rfl
      · nofun
      · exact apart_cons rfl
  | cons part parts => exact apart_cons rfl

namespace Cursor

variable {c : Cursor} {bytes : Token → Text} {ts : List Token} {last : Text}

/-- The scanner reads the bytes of a token as that token, after a gap and before something apart. -/
theorem content_next {t : Token} {gap after : Text} (h : t.WrittenBy (bytes t))
    (hRest : c.rest = gap ++ (bytes t ++ after)) (hGap : Gap false gap) (hApart : Apart after) :
    ∃ u c', c.next = (u, c') ∧ u.kind ≠ .eof ∧ u.content = t.content ∧ c'.rest = after := by
  refine ⟨_, _, next_eq_of_written hRest hGap h.written fun _ => hApart, h.written.kind_ne_eof, ?_,
    rfl⟩
  rw [Token.content, h.written.value_token, ← h.text_eq, Token.content]

/-- Tokens whose bytes come one after another, each after a blank, are read back. -/
theorem contents_spaced (hWritten : ∀ t ∈ ts, t.WrittenBy (bytes t)) (hLast : last = [] ∨ last = [32])
    (hRest : c.rest = (ts.map bytes).flatMap (32 :: ·) ++ last) :
    c.tokens.body.map Token.content = ts.map Token.content := by
  induction ts generalizing c with
  | nil =>
      have hGap : Gap true c.rest := by
        rw [hRest]
        rcases hLast with rfl | rfl
        · exact .nil
        · exact .blank rfl .nil
      rw [tokens_of_end (next_eq_of_end hGap) rfl]
  | cons t ts ih =>
      obtain ⟨ht, hMore⟩ := List.forall_mem_cons.mp hWritten
      have hParts : c.rest = [32] ++ (bytes t ++ ((ts.map bytes).flatMap (32 :: ·) ++ last)) := by
        rw [hRest, List.map_cons, List.flatMap_cons]
        simp
      obtain ⟨u, c', hNext, hKind, hContent, hAfter⟩ :=
        content_next ht hParts (.blank rfl .nil) (apart_blanks hLast _)
      rw [tokens_of_next hNext hKind, List.map_cons, List.map_cons, hContent, ih hMore hAfter]

/-- So are tokens whose bytes stand between single blanks. -/
theorem contents_joined (hWritten : ∀ t ∈ ts, t.WrittenBy (bytes t)) (hLast : last = [] ∨ last = [32])
    (hRest : c.rest = Text.join [32] (ts.map bytes) ++ last) :
    c.tokens.body.map Token.content = ts.map Token.content := by
  cases ts with
  | nil => exact contents_spaced hWritten hLast hRest
  | cons t ts =>
      obtain ⟨ht, hMore⟩ := List.forall_mem_cons.mp hWritten
      rw [List.map_cons, Text.join_cons, List.append_assoc] at hRest
      obtain ⟨u, c', hNext, hKind, hContent, hAfter⟩ :=
        content_next ht hRest .nil (apart_blanks hLast _)
      rw [tokens_of_next hNext hKind, List.map_cons, List.map_cons, hContent,
        contents_spaced hMore hLast hAfter]

end Cursor

namespace Tokens

/-- The source written anew: the bytes of its tokens with a blank between any two of them. -/
def respaced (source : Text) (ts : List Token) : Text := Text.join [32] (ts.map (·.slice source))

theorem slice_eof (source : Text) : (ofSource source).eof.slice source = [] := by
  have hStop : (ofSource source).eof.stop = (ofSource source).eof.position.offset := by
    have hText : (ofSource source).eof.text = none := congrArg (·.2.1) (content_eof source)
    rw [Token.stop, Token.width, kind_eof, Token.raw, hText]
    rfl
  rw [Token.slice, hStop, List.extract_eq_take_drop, Nat.sub_self, List.take_zero]

/-- With the end token there is a blank more at the end, unless there is no other token. -/
theorem respaced_toList (source : Text) : ∃ last, (last = [] ∨ last = [32]) ∧
    respaced source (ofSource source).toList = respaced source (ofSource source).body ++ last := by
  rw [respaced, respaced, toList, List.map_append, List.map_singleton, slice_eof]
  cases (ofSource source).body with
  | nil => exact ⟨[], .inl rfl, rfl⟩
  | cons t ts =>
      refine ⟨[32], .inr rfl, ?_⟩
      rw [List.map_cons, List.cons_append, Text.join_cons, Text.join_cons, List.flatMap_append,
        List.append_assoc]
      rfl

variable {source : Text}

/-- The source written anew, with or without a blank at its end, has the same tokens. -/
theorem contents_respaced_append (hLegal : ∀ t ∈ (ofSource source).toList, t.kind ≠ .illegal)
    {last : Text} (hLast : last = [] ∨ last = [32]) :
    (ofSource (respaced source (ofSource source).body ++ last)).toList.map Token.content =
      (ofSource source).toList.map Token.content := by
  have hWritten : ∀ t ∈ (ofSource source).body, t.WrittenBy (t.slice source) := by
    intro t ht
    have hMem : t ∈ (ofSource source).toList := List.mem_append_left _ ht
    exact writtenBy_slice hMem ((Cursor.kinds_tokens _).2 t ht) (hLegal t hMem)
  have hBody := Cursor.contents_joined (c := Cursor.ofSource _) hWritten hLast rfl
  rw [toList, toList, List.map_append, List.map_append, List.map_singleton, List.map_singleton,
    content_eof, content_eof, ← hBody]
  rfl

/-- Without a token that is a fault, a source has the same tokens when it is written anew from their
bytes, whether or not those of the end token, which are none, come after a blank as well. -/
theorem contents_respaced (hLegal : ∀ t ∈ (ofSource source).toList, t.kind ≠ .illegal) :
    (ofSource (respaced source (ofSource source).toList)).toList.map Token.content =
        (ofSource source).toList.map Token.content ∧
      (ofSource (respaced source (ofSource source).body)).toList.map Token.content =
        (ofSource source).toList.map Token.content := by
  constructor
  · obtain ⟨last, hLast, hJoin⟩ := respaced_toList source
    rw [hJoin]
    exact contents_respaced_append hLegal hLast
  · have hAlone := contents_respaced_append hLegal (.inl rfl)
    rwa [List.append_nil] at hAlone

/-- Tokens that touch, with a comment among them. -/
def touchingTokens : Text := [97, 34, 98, 34, 58, 45, 49, 46, 53, 35, 99, 10, 124, 50]

theorem contents_respaced_touchingTokens :
    respaced touchingTokens (ofSource touchingTokens).body =
        [97, 32, 34, 98, 34, 32, 58, 32, 45, 49, 46, 53, 32, 124, 32, 50] ∧
      (ofSource (respaced touchingTokens (ofSource touchingTokens).body)).toList.map Token.content =
        (ofSource touchingTokens).toList.map Token.content :=
  ⟨by decide +kernel, (contents_respaced (by decide +kernel)).2⟩

end Tokens

end Runsheet
