import Runsheet.Proofs.Token.Lexeme
import Runsheet.Proofs.Token.Utf8

/-! The places of tokens. The scanner goes on from place to place, lexeme by lexeme, yet the place of a
token is where a reader of the source would count it to be: no lexeme ends inside a character, whatever
bytes the source is made of. -/
namespace Runsheet

namespace Text

/-- What stands after the last newline of a text. -/
def currentLine (t : Text) : Text := (t.reverse.takeWhile (· != 10)).reverse

theorem takeWhile_line {t : Text} (h : 10 ∉ t) {s : Text} (hs : ∀ b ∈ s.head?, b = 10) :
    (t.reverse ++ s).takeWhile (· != 10) = t.reverse := by
  refine Scan.takeWhile_append_of_stop (fun b hb => ?_) fun b hb => bne_eq_false_iff_eq.mpr (hs b hb)
  exact bne_iff_ne.mpr fun hNewline => h (hNewline ▸ List.mem_reverse.mp hb)

theorem currentLine_of_line {t : Text} (h : 10 ∉ t) : currentLine t = t := by
  have hLine : t.reverse.takeWhile (· != 10) = t.reverse := by
    simpa using @takeWhile_line t h [] nofun
  rw [currentLine, hLine, List.reverse_reverse]

theorem currentLine_append {t : Text} (h : 10 ∉ t) (s : Text) : currentLine (s ++ 10 :: t) = t := by
  have hReverse : (s ++ 10 :: t).reverse = t.reverse ++ 10 :: s.reverse := by simp
  rw [currentLine, hReverse, takeWhile_line h (by simp), List.reverse_reverse]

/-- A text has one line, or its last line comes after a newline. -/
theorem exists_line (t : Text) : 10 ∉ t ∨ ∃ s u, t = s ++ 10 :: u ∧ 10 ∉ u := by
  by_cases h : 10 ∈ t
  · obtain ⟨s, u, hReverse, hLast⟩ := List.eq_append_cons_of_mem (List.mem_reverse.mpr h)
    refine Or.inr ⟨u.reverse, s.reverse, ?_, by simpa using hLast⟩
    rw [← List.reverse_reverse t, hReverse]
    simp
  · exact Or.inl h

end Text

namespace Position

/-- Without a newline, each rune takes the place to the next column. -/
theorem column_after_of_line {t : Text} (h : 10 ∉ t) (p : Position) :
    (p.after t).column = p.column + t.runes.length := by
  have hRunes : .char '\n' ∉ t.runes := by
    intro hNewline
    apply h
    rw [← Text.ofRunes_runes t]
    exact List.mem_flatMap.mpr ⟨_, hNewline, List.mem_singleton_self 10⟩
  rw [after]
  clear h
  generalize t.runes = rs at hRunes
  induction rs generalizing p with
  | nil => rfl
  | cons r rs ih =>
      obtain ⟨hFirst, hRest⟩ := not_or.mp (mt List.mem_cons.mpr hRunes)
      rw [List.foldl_cons, ih _ hRest, step, if_neg (Ne.symm hFirst), List.length_cons]
      dsimp only
      omega

/-- Columns count the runes of the line. -/
theorem column_after_start (t : Text) :
    (start.after t).column = 1 + (Text.currentLine t).runes.length := by
  rcases Text.exists_line t with h | ⟨s, u, rfl, h⟩
  · rw [column_after_of_line h, Text.currentLine_of_line h]
    rfl
  · rw [after_newline, column_after_of_line h, Text.currentLine_append h]

end Position

namespace Scan

variable {kind : TokenKind} {fault : Option ScanFault} {quote : UInt8} {value bytes gap after : Text}

theorem Gap.runes_append (h : Gap false gap) (rest : Text) :
    Text.runes (gap ++ rest) = Text.runes gap ++ Text.runes rest := by
  by_cases hGap : gap = []
  · rw [hGap]
    rfl
  · obtain ⟨s, b, rfl, hb⟩ := h.last_blank hGap
    exact Text.runes_append_of_last (ascii_of_isBlankByte hb) s rest

theorem runes_append_of_ascii (hBytes : bytes ≠ []) (h : ∀ b ∈ bytes, b < 0x80) :
    Text.runes (bytes ++ after) = Text.runes bytes ++ Text.runes after := by
  rw [← List.dropLast_concat_getLast hBytes]
  exact Text.runes_append_of_last (h _ (List.getLast_mem hBytes)) _ after

/-- What writes a symbol ends with an ASCII byte, if only with a quote. -/
theorem Written.runes_append (h : Written kind value bytes) :
    Text.runes (bytes ++ after) = Text.runes bytes ++ Text.runes after := by
  cases h with
  | sign h => exact Text.runes_append_of_last (ascii_of_signByte h) [] after
  | word h =>
      obtain ⟨b, t, rfl, -⟩ := h.head_part
      exact runes_append_of_ascii (List.cons_ne_nil b t) h.ascii
  | @string quote t value hQuote h =>
      have hAscii : quote < 0x80 := by rcases hQuote with rfl | rfl <;> decide
      exact Text.runes_append_of_last hAscii (quote :: t) after

/-- No lexeme ends inside a rune. -/
theorem Lexed.runes_append (h : Lexed kind fault bytes after) :
    Text.runes (bytes ++ after) = Text.runes bytes ++ Text.runes after := by
  cases h with
  | written h => exact h.runes_append
  | refused h =>
      cases h with
      | unterminatedString hQuote h =>
          rcases h.after_cases with rfl | ⟨t, rfl⟩
          · rw [List.append_nil]
            exact (List.append_nil _).symm
          · exact Text.runes_append_cons (by decide) _ t
      | missingOptionName hDashes =>
          refine runes_append_of_ascii (List.cons_ne_nil _ _) (List.forall_mem_cons.mpr ⟨by decide, ?_⟩)
          intro b hb
          rw [hDashes b hb]
          decide
      | @unexpectedCharacter r b t _ hRune =>
          have hOne : Text.runes (Text.ofRunes [r]) = [r] := Text.runes_ofRunes hRune
          rw [Text.ofRunes, List.flatMap_singleton, ← bytes_of_runes hRune] at hOne
          rw [hRune, hOne]
          rfl

end Scan

namespace Cursor

open Scan

/-- The cursor stands behind whole runes of the source, and at the place to which they lead. -/
def Follows (c : Cursor) (source : Text) : Prop :=
  ∃ rs, source.runes = rs ++ c.rest.runes ∧ c.position = rs.foldl Position.step .start

variable {source : Text} {c : Cursor}

theorem follows_ofSource (source : Text) : (ofSource source).Follows source := ⟨[], rfl, rfl⟩

theorem Follows.skip {rest : Text} (h : c.Follows source) (own : Text)
    (hRunes : Text.runes c.rest = Text.runes own ++ Text.runes rest) :
    Follows ⟨rest, c.position.after own⟩ source := by
  obtain ⟨rs, hSource, hPosition⟩ := h
  refine ⟨rs ++ Text.runes own, ?_, ?_⟩
  · rw [hSource, hRunes, List.append_assoc]
  · rw [List.foldl_append, ← hPosition]
    rfl

/-- A place after whole runes is the place after their bytes. -/
theorem Follows.position_eq (h : c.Follows source) :
    c.position = Position.start.after (source.take c.position.offset) ∧
      source.runes = Text.runes (source.take c.position.offset) ++
        Text.runes (source.drop c.position.offset) := by
  obtain ⟨rs, hSource, hPosition⟩ := h
  have hOwn := Text.runes_ofRunes hSource
  have hText : source = Text.ofRunes rs ++ c.rest := by
    rw [← Text.ofRunes_runes source, hSource, Text.ofRunes_append, Text.ofRunes_runes]
  have hPlace : c.position = Position.start.after (Text.ofRunes rs) := by
    rw [hPosition, Position.after, hOwn]
  have hOffset : c.position.offset = (Text.ofRunes rs).length := by
    rw [hPlace, Position.offset_after]
    exact Nat.zero_add _
  rw [hOffset]
  conv =>
    rhs
    rw [hSource]
  rw [hText, List.take_left, List.drop_left, hOwn]
  exact ⟨hPlace, rfl⟩

theorem Follows.next (h : c.Follows source) :
    (∃ rest, Follows ⟨rest, c.next.1.position⟩ source) ∧ c.next.2.Follows source := by
  have hStep := c.step_next
  generalize c.next.1 = t at hStep
  generalize c.next.2 = c' at hStep
  cases hStep with
  | last hGap =>
      have hEnd := @skip source c [] h c.rest (List.append_nil _).symm
      exact ⟨⟨_, hEnd⟩, hEnd⟩
  | @token kind fault gap bytes after hRest hGap hLexed =>
      have hGapRunes : Text.runes c.rest = Text.runes gap ++ Text.runes (bytes ++ after) := by
        rw [hRest, hGap.runes_append]
      have hStart := h.skip gap hGapRunes
      exact ⟨⟨_, hStart⟩, hStart.skip bytes hLexed.runes_append⟩

end Cursor

/-- The line and the column of a token count the newlines before it and the runes before it in its
line, and these are runes of the whole source. -/
theorem Tokens.place_of_mem {source : Text} {t : Token} (ht : t ∈ (Tokens.ofSource source).toList) :
    t.position.line = 1 + (source.take t.position.offset).count 10 ∧
      t.position.column =
        1 + (Text.currentLine (source.take t.position.offset)).runes.length ∧
      source.runes = Text.runes (source.take t.position.offset) ++
        Text.runes (source.drop t.position.offset) := by
  have hNext : ∀ c : Cursor, c.Follows source → c.next.1.kind ≠ .eof → c.next.2.Follows source :=
    fun c h _ => h.next.2
  obtain ⟨c, hFollows, rfl⟩ := Cursor.exists_of_mem_tokens hNext (Cursor.follows_ofSource source) ht
  obtain ⟨⟨rest, hPlace⟩, -⟩ := hFollows.next
  obtain ⟨hPosition, hRunes⟩ := hPlace.position_eq
  have hLine := congrArg Position.line hPosition
  have hColumn := congrArg Position.column hPosition
  rw [Position.line_after] at hLine
  rw [Position.column_after_start] at hColumn
  exact ⟨hLine, hColumn, hRunes⟩

/-- A character, a string that goes over a line and holds a stray byte, and a name. -/
def mixedLines : Text := [0xc3, 0xa9, 10, 34, 92, 10, 0xe2, 0x82, 0xac, 0xff, 34, 32, 97]

theorem Tokens.place_of_mem_mixedLines :
    ⟨.name, some [97], ⟨3, 5, 12⟩, true, none⟩ ∈ (Tokens.ofSource mixedLines).toList ∧
      3 = 1 + (mixedLines.take 12).count 10 ∧
      5 = 1 + (Text.currentLine (mixedLines.take 12)).runes.length ∧
      mixedLines.runes = Text.runes (mixedLines.take 12) ++ Text.runes (mixedLines.drop 12) := by
  have hName : ⟨.name, some [97], ⟨3, 5, 12⟩, true, none⟩ ∈ (Tokens.ofSource mixedLines).toList := by
    decide +kernel
  exact ⟨hName, Tokens.place_of_mem hName⟩

end Runsheet
