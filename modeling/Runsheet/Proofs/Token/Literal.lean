import Runsheet.Proofs.Token.Kind

/-! String literals. Every text can be written between quotes so that the scanner reads it back as one
token, and every literal that the scanner reads falls into plain bytes and pairs with a backslash in one
way only, so no backslash is left over when its contents are told. -/
namespace Runsheet

/-- A part of a literal: a byte for itself, or a byte after a backslash. -/
inductive Piece
  | plain (b : UInt8)
  | pair (b : UInt8)
  deriving DecidableEq, Repr

namespace Piece

def bytes : Piece → Text
  | plain b => [b]
  | pair b => [92, b]

def value : Piece → UInt8
  | plain b => b
  | pair b => Scan.escaped b

/-- Whether a piece may stand between the quotes. -/
def Fits (quote : UInt8) : Piece → Prop
  | plain b => b ≠ quote ∧ b ≠ 10 ∧ b ≠ 92
  | pair _ => True

/-- Pieces that fit are told by their bytes. -/
theorem eq_of_bytes {quote : UInt8} {first second : List Piece} (hFirst : ∀ p ∈ first, p.Fits quote)
    (hSecond : ∀ p ∈ second, p.Fits quote) (h : first.flatMap bytes = second.flatMap bytes) :
    first = second := by
  induction first generalizing second with
  | nil =>
      cases second with
      | nil => rfl
      | cons q second => cases q <;> cases h
  | cons p first ih =>
      cases second with
      | nil => cases p <;> cases h
      | cons q second =>
          have hNext := ih (List.forall_mem_cons.mp hFirst).2 (List.forall_mem_cons.mp hSecond).2
          have hp := hFirst p List.mem_cons_self
          have hq := hSecond q List.mem_cons_self
          rw [List.flatMap_cons, List.flatMap_cons] at h
          cases p with
          | plain b =>
              cases q with
              | plain c =>
                  obtain ⟨rfl, hMore⟩ := List.cons.inj h
                  rw [hNext hMore]
              | pair c => exact absurd (List.cons.inj h).1 hp.2.2
          | pair b =>
              cases q with
              | plain c => exact absurd (List.cons.inj h).1.symm hq.2.2
              | pair c =>
                  obtain ⟨rfl, hMore⟩ := List.cons.inj (List.cons.inj h).2
                  rw [hNext hMore]

end Piece

namespace Token

/-- A text as it is written between quotes: a backslash before each quote and each backslash, and
for a newline the letter that stands for it. -/
def escape (quote : UInt8) (s : Text) : Text := s.flatMap fun b =>
  if b = quote ∨ b = 92 then [92, b] else if b = 10 then [92, 110] else [b]

/-- What `unescape` gives, or nothing if it comes to a backslash with no byte after it. -/
def unescape? : Text → Option Text
  | [] => some []
  | [b] => if b = 92 then none else some [b]
  | b :: c :: rest =>
    if b = 92 then (unescape? rest).map (Scan.escaped c :: ·)
    else (unescape? (c :: rest)).map (b :: ·)

theorem unescape_of_unescape? {t value : Text} (h : unescape? t = some value) : unescape t = value := by
  fun_induction unescape? t generalizing value with
  | case1 => exact Option.some.inj h
  | case2 => exact nomatch h
  | case3 => exact Option.some.inj h
  | case4 c rest ih =>
      obtain ⟨more, hMore, rfl⟩ := Option.map_eq_some_iff.mp h
      rw [unescape, if_pos rfl, ih hMore, Scan.escaped]
  | case5 b c rest hEscape ih =>
      obtain ⟨more, hMore, rfl⟩ := Option.map_eq_some_iff.mp h
      rw [unescape, if_neg hEscape, ih hMore]

/-- A string token stands for what its bytes between the quotes are unescaped to. -/
theorem value_of_string {t : Token} {quote : UInt8} {body : Text} (hKind : t.kind = .string)
    (hText : t.text = some (quote :: (body ++ [quote]))) : t.value = unescape body := by
  simp [value, raw, hKind, hText]

end Token

/-- Pieces that fit leave no backslash over. -/
theorem Piece.unescape?_bytes {quote : UInt8} {pieces : List Piece}
    (h : ∀ p ∈ pieces, p.Fits quote) :
    Token.unescape? (pieces.flatMap bytes) = some (pieces.map value) := by
  induction pieces with
  | nil => rfl
  | cons p pieces ih =>
      obtain ⟨hp, hMore⟩ := List.forall_mem_cons.mp h
      have hNext := ih hMore
      rw [List.flatMap_cons, List.map_cons]
      generalize pieces.flatMap bytes = t at hNext
      cases p with
      | plain b =>
          have hEscape : b ≠ 92 := hp.2.2
          cases t with
          | nil =>
              rw [← Option.some.inj hNext]
              exact if_neg hEscape
          | cons c t =>
              rw [bytes, List.singleton_append, Token.unescape?, if_neg hEscape, hNext]
              rfl
      | pair b =>
          rw [bytes, List.cons_append, List.singleton_append, Token.unescape?, if_pos rfl, hNext]
          rfl

namespace Scan

variable {quote : UInt8} {t value : Text}

theorem quoted_escape (hQuote : quote = 34 ∨ quote = 39) (s : Text) :
    Quoted quote (Token.escape quote s) s := by
  induction s with
  | nil => exact .nil
  | cons b s ih =>
      rw [Token.escape, List.flatMap_cons, ← Token.escape]
      by_cases hMark : b = quote ∨ b = 92
      · have hEscaped : escaped b = b := by
          rcases hMark with rfl | rfl
          · rcases hQuote with rfl | rfl <;> rfl
          · rfl
        have hPair : Quoted quote (92 :: b :: Token.escape quote s) (escaped b :: s) := .escape b ih
        rw [hEscaped] at hPair
        rw [if_pos hMark]
        exact hPair
      rw [if_neg hMark]
      by_cases hLine : b = 10
      · rw [if_pos hLine, hLine]
        exact .escape 110 ih
      · rw [if_neg hLine]
        exact .plain (mt Or.inl hMark) hLine (mt Or.inr hMark) ih

theorem Quoted.exists_pieces (h : Quoted quote t value) :
    ∃ pieces : List Piece, (∀ p ∈ pieces, p.Fits quote) ∧ pieces.flatMap Piece.bytes = t := by
  induction h with
  | nil => exact ⟨[], nofun, rfl⟩
  | @plain b t value hQuote hLine hEscape _ ih =>
      obtain ⟨pieces, hFits, rfl⟩ := ih
      exact ⟨.plain b :: pieces, List.forall_mem_cons.mpr ⟨⟨hQuote, hLine, hEscape⟩, hFits⟩, rfl⟩
  | escape b _ ih =>
      obtain ⟨pieces, hFits, rfl⟩ := ih
      exact ⟨.pair b :: pieces, List.forall_mem_cons.mpr ⟨trivial, hFits⟩, rfl⟩

/-- A string lexeme is quoted. -/
theorem Lexed.exists_quoted {fault : Option ScanFault} {bytes after : Text}
    (h : Lexed .string fault bytes after) :
    ∃ quote body value, (quote = 34 ∨ quote = 39) ∧ bytes = quote :: (body ++ [quote]) ∧
      Quoted quote body value := by
  cases h with
  | written h =>
      cases h with
      | sign h => cases h
      | word h => exact absurd rfl h.kind_ne.2.1
      | string hQuote h => exact ⟨_, _, _, hQuote, rfl, h⟩

end Scan

namespace Tokens

open Scan

/-- A symbol with nothing beside it is the one token of the source. -/
theorem body_of_written {kind : TokenKind} {value bytes : Text} (h : Written kind value bytes) :
    (Tokens.ofSource bytes).body =
      [⟨kind, if isPunctuation kind then none else some bytes, .start, false, none⟩] := by
  have hBytes : (Cursor.ofSource bytes).rest = [] ++ (bytes ++ []) := (List.append_nil bytes).symm
  have hNext := Cursor.next_eq_of_written hBytes .nil h fun _ => nofun
  have hLast (position : Position) : (Cursor.mk [] position).tokens.body = [] := by
    rw [Cursor.tokens_of_end (Cursor.next_eq_of_end .nil) rfl]
  rw [Tokens.ofSource, Cursor.tokens_of_next hNext h.kind_ne_eof, hLast]
  rfl

/-- A text written between quotes is read back as one token. -/
theorem body_of_escape {quote : UInt8} (hQuote : quote = 34 ∨ quote = 39) (s : Text) :
    ∃ t, (Tokens.ofSource (quote :: (Token.escape quote s ++ [quote]))).body = [t] ∧
      t.kind = .string ∧ t.position = .start ∧
      t.text = some (quote :: (Token.escape quote s ++ [quote])) ∧ t.value = s := by
  have hWritten := Written.string hQuote (quoted_escape hQuote s)
  exact ⟨_, body_of_written hWritten, rfl, rfl, rfl, hWritten.value_token ..⟩

/-- A string token falls into pieces in one way only, and no backslash is left over. -/
theorem pieces_of_mem {source : Text} {t : Token} (ht : t ∈ (Tokens.ofSource source).toList)
    (hString : t.kind = .string) :
    ∃ quote body, (quote = 34 ∨ quote = 39) ∧ t.text = some (quote :: (body ++ [quote])) ∧
      (∃! pieces : List Piece, (∀ p ∈ pieces, p.Fits quote) ∧ pieces.flatMap Piece.bytes = body) ∧
      Token.unescape? body = some t.value := by
  rcases exists_lexed ht with ⟨hEnd, -⟩ | ⟨before, bytes, after, -, -, hSpells, hLexed, -⟩
  · exact absurd (hString.symm.trans hEnd) nofun
  have hText := hSpells.text_eq
  rw [hString] at hText hLexed
  obtain ⟨quote, body, value, hQuote, rfl, hQuoted⟩ := hLexed.exists_quoted
  obtain ⟨pieces, hFits, rfl⟩ := hQuoted.exists_pieces
  refine ⟨quote, pieces.flatMap Piece.bytes, hQuote, hText, ?_, ?_⟩
  · exact ⟨pieces, ⟨hFits, rfl⟩, fun other h => Piece.eq_of_bytes h.1 hFits h.2⟩
  · have hValue := Piece.unescape?_bytes hFits
    rw [Token.value_of_string hString hText, Token.unescape_of_unescape? hValue, hValue]

/-- String literals give back what was written, and every string token of any source falls into
plain bytes and pairs in one way only, so that its value is told without a backslash left over. -/
theorem literals_decode :
    (∀ (quote : UInt8) (s : Text), quote = 34 ∨ quote = 39 →
      ∃ t, (Tokens.ofSource (quote :: (Token.escape quote s ++ [quote]))).body = [t] ∧
        t.kind = .string ∧ t.position = .start ∧
        t.text = some (quote :: (Token.escape quote s ++ [quote])) ∧ t.value = s) ∧
    ∀ (source : Text), ∀ t ∈ (Tokens.ofSource source).toList, t.kind = .string →
      ∃ quote body, (quote = 34 ∨ quote = 39) ∧ t.text = some (quote :: (body ++ [quote])) ∧
        (∃! pieces : List Piece, (∀ p ∈ pieces, p.Fits quote) ∧ pieces.flatMap Piece.bytes = body) ∧
        Token.unescape? body = some t.value :=
  ⟨fun _ s hQuote => body_of_escape hQuote s, fun _ _ => pieces_of_mem⟩

/-- A text with both marks, a newline and a byte that is no UTF-8, and a literal that ends with two
backslashes before its quote. -/
theorem literals_decode_backslashes :
    (∃ t, (Tokens.ofSource [34, 92, 34, 92, 92, 92, 110, 255, 110, 34]).body = [t] ∧
        t.kind = .string ∧ t.position = .start ∧
        t.text = some [34, 92, 34, 92, 92, 92, 110, 255, 110, 34] ∧
        t.value = [34, 92, 10, 255, 110]) ∧
      ⟨.string, some [39, 92, 10, 34, 92, 92, 39], ⟨1, 3, 2⟩, true, none⟩ ∈
        (Tokens.ofSource [120, 32, 39, 92, 10, 34, 92, 92, 39]).toList ∧
      ∃ quote body, (quote = 34 ∨ quote = 39) ∧
        some [39, 92, 10, 34, 92, 92, 39] = some (quote :: (body ++ [quote])) ∧
        (∃! pieces : List Piece, (∀ p ∈ pieces, p.Fits quote) ∧ pieces.flatMap Piece.bytes = body) ∧
        Token.unescape? body = some [10, 34, 92] :=
  have hMem : ⟨.string, some [39, 92, 10, 34, 92, 92, 39], ⟨1, 3, 2⟩, true, none⟩ ∈
      (Tokens.ofSource [120, 32, 39, 92, 10, 34, 92, 92, 39]).toList := by decide +kernel
  ⟨literals_decode.1 34 [34, 92, 10, 255, 110] (Or.inl rfl), hMem, literals_decode.2 _ _ hMem rfl⟩

end Tokens

end Runsheet
