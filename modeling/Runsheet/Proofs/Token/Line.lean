import Runsheet.Proofs.Token.Kind
import Runsheet.Proofs.Token.Place

/-! The lines of a source, and where in its line a token stands. Lines are what stands between
newlines. Carriage returns at the end of a line may be left out where it is shown; no token starts
among them, but the end of the source may lie behind them. -/
namespace Runsheet

namespace Text

variable {b c : UInt8} {s t : Text}

section parts

theorem splitAt_ne_nil (b : UInt8) (t : Text) : splitAt b t ≠ [] := by
  cases t with
  | nil => simp [splitAt]
  | cons c t =>
      rw [splitAt]
      split
      · simp
      · split <;> simp

/-- A byte that is no separator goes to the first part. -/
theorem splitAt_cons_of_ne (h : c ≠ b) (t : Text) :
    ∃ part parts, splitAt b t = part :: parts ∧ splitAt b (c :: t) = (c :: part) :: parts := by
  obtain ⟨part, parts, hParts⟩ := List.exists_cons_of_ne_nil (splitAt_ne_nil b t)
  exact ⟨part, parts, hParts, by rw [splitAt, if_neg h, hParts]⟩

/-- A separator ends what comes before it. -/
theorem splitAt_append_cons (b : UInt8) (s t : Text) :
    splitAt b (s ++ b :: t) = splitAt b s ++ splitAt b t := by
  induction s with
  | nil => simp [splitAt]
  | cons c s ih =>
      by_cases h : c = b
      · simp [splitAt, h, ih]
      · obtain ⟨part, parts, hParts, hMore⟩ := splitAt_cons_of_ne h s
        rw [hMore, List.cons_append, splitAt, if_neg h, ih, hParts]
        rfl

theorem length_splitAt (b : UInt8) (t : Text) : (splitAt b t).length = t.count b + 1 := by
  induction t with
  | nil => rfl
  | cons c t ih =>
      by_cases h : c = b
      · simp [splitAt, h, ih]
      · obtain ⟨part, parts, hParts, hMore⟩ := splitAt_cons_of_ne h t
        rw [hMore, List.count_cons_of_ne h, ← ih, hParts]
        rfl

/-- The first part ends before the first separator. -/
theorem head?_splitAt (b : UInt8) (t : Text) :
    (splitAt b t).head? = some (t.takeWhile (· != b)) := by
  induction t with
  | nil => rfl
  | cons c t ih =>
      by_cases h : c = b
      · simp [splitAt, h]
      · obtain ⟨part, parts, hParts, hMore⟩ := splitAt_cons_of_ne h t
        rw [hParts] at ih
        have hFirst : part = t.takeWhile (· != b) := Option.some.inj ih
        simp [hMore, hFirst, h]

end parts

/-- The line that goes over an offset, from the newline before it to the newline after it. -/
def lineAround (t : Text) (offset : Nat) : Text :=
  currentLine (t.take offset) ++ (t.drop offset).takeWhile (· != 10)

/-- The newlines before an offset tell which line goes over it. -/
theorem getElem?_splitAt (t : Text) (offset : Nat) :
    (t.splitAt 10)[(t.take offset).count 10]? = some (t.lineAround offset) := by
  have hText := List.take_append_drop offset t
  rw [lineAround]
  generalize t.take offset = s at hText
  generalize t.drop offset = rest at hText
  subst hText
  have hFirst : ∀ u : Text, 10 ∉ u →
      (u ++ rest).takeWhile (· != 10) = u ++ rest.takeWhile (· != 10) := fun u hu =>
    List.takeWhile_append_of_pos fun b hb => bne_iff_ne.mpr fun hNewline => hu (hNewline ▸ hb)
  rcases exists_line s with h | ⟨s, u, rfl, h⟩
  · rw [List.count_eq_zero.mpr h, ← List.head?_eq_getElem?, head?_splitAt, hFirst s h,
      currentLine_of_line h]
  · have hCount : (s ++ 10 :: u).count 10 = (splitAt 10 s).length := by
      rw [length_splitAt, List.count_append, List.count_cons_self, List.count_eq_zero.mpr h]
    rw [hCount, List.append_assoc, List.cons_append, splitAt_append_cons,
      List.getElem?_append_right (Nat.le_refl _), Nat.sub_self, ← List.head?_eq_getElem?,
      head?_splitAt, hFirst u h, currentLine_append h]

/-- Nothing before another byte is left out. -/
theorem dropEnd_append_cons (h : c ≠ b) (s t : Text) :
    dropEnd b (s ++ c :: t) = s ++ c :: dropEnd b t := by
  have hReverse : (s ++ c :: t).reverse = t.reverse ++ c :: s.reverse := by simp
  rw [dropEnd, dropEnd, hReverse, List.dropWhile_append]
  split
  · rename_i hEmpty
    rw [List.isEmpty_iff.mp hEmpty, List.dropWhile_cons_of_neg (by simpa using h)]
    simp
  · simp

theorem length_runes_le (t : Text) : t.runes.length ≤ t.length := by
  have hBytes : ∀ rs : List Rune, rs.length ≤ (ofRunes rs).length := by
    intro rs
    induction rs with
    | nil => simp
    | cons r rs ih =>
        have hRune : r.bytes ≠ [] := by
          cases r with
          | char x =>
              obtain ⟨b, more, hEncode, -⟩ := Rune.first_encoded x []
              rw [Rune.bytes, hEncode]
              simp
          | invalid b => simp [Rune.bytes]
        have hLength := List.length_pos_iff.mpr hRune
        rw [ofRunes, List.flatMap_cons, ← ofRunes, List.length_append, List.length_cons]
        omega
  simpa [ofRunes_runes] using hBytes t.runes

end Text

namespace Tokens

open Scan

variable {source : Text} {t : Token}

/-- A token stands where its bytes begin, the end token behind the whole source. No token starts with
a blank. -/
theorem start_cases (ht : t ∈ (Tokens.ofSource source).toList) :
    (t.kind = .eof ∧ t.position.offset = source.length) ∨
      t.kind ≠ .eof ∧ ∃ before b after, source = before ++ b :: after ∧
        t.position.offset = before.length ∧ isBlankByte b = false := by
  obtain ⟨c, before, hStands, rfl⟩ := exists_stands ht
  obtain ⟨gap, rest, hRest, -, ⟨rfl, hGap⟩ | ⟨hGap, b, more, rfl, hBlank, hMark⟩⟩ :=
    exists_gap c.rest
  · rw [List.append_nil] at hRest
    rw [← hRest] at hGap
    rw [Cursor.next_eq_of_end hGap, Position.offset_after, hStands.offset_eq, hStands.source_eq,
      List.length_append]
    exact Or.inl ⟨rfl, rfl⟩
  · obtain ⟨hSource, hOffset, -⟩ := hStands.after_gap hRest hGap
    obtain ⟨kind, fault, bytes, after, rfl, hLexed⟩ := Scan.exists_lexed b more
    rw [Cursor.next_eq_of_lexed hRest hGap hBlank hMark hLexed]
    exact Or.inr ⟨hLexed.kind_ne_eof, _, b, _, hSource, hOffset, hBlank⟩

/-- A token stands where the text before it leads. -/
theorem position_of_mem (ht : t ∈ (Tokens.ofSource source).toList) :
    t.position = Position.start.after (source.take t.position.offset) := by
  have hNext : ∀ c : Cursor, c.Follows source → c.next.1.kind ≠ .eof → c.next.2.Follows source :=
    fun c h _ => h.next.2
  obtain ⟨c, hFollows, rfl⟩ := Cursor.exists_of_mem_tokens hNext (Cursor.follows_ofSource source) ht
  obtain ⟨⟨rest, hPlace⟩, -⟩ := hFollows.next
  exact hPlace.position_eq.1

theorem line_of_mem (ht : t ∈ (Tokens.ofSource source).toList) :
    t.position.line = 1 + (source.take t.position.offset).count 10 := by
  have hLine := congrArg Position.line (position_of_mem ht)
  rwa [Position.line_after] at hLine

theorem column_of_mem (ht : t ∈ (Tokens.ofSource source).toList) :
    t.position.column =
      1 + (Text.currentLine (source.take t.position.offset)).runes.length := by
  have hColumn := congrArg Position.column (position_of_mem ht)
  rwa [Position.column_after_start] at hColumn

/-- Tokens stand in what is shown of their line or right behind it. Only the end of the source may be
farther, and it is when what is shown has fewer bytes than the whole line has characters. -/
theorem lt_column_iff (ht : t ∈ (Tokens.ofSource source).toList) :
    ((source.lineAround t.position.offset).dropEnd 13).length + 1 < t.position.column ↔
      t.kind = .eof ∧ ((source.lineAround t.position.offset).dropEnd 13).length <
        (source.lineAround t.position.offset).runes.length := by
  rw [column_of_mem ht, Text.lineAround]
  rcases start_cases ht with ⟨hEnd, hOffset⟩ | ⟨hKind, before, b, after, hSource, hOffset, hBlank⟩
  · rw [hOffset, List.drop_length, List.take_length, List.takeWhile_nil, List.append_nil]
    simp [hEnd, Nat.add_comm 1]
  · have hNewline : b ≠ 10 := by rintro rfl; cases hBlank
    have hReturn : b ≠ 13 := by rintro rfl; cases hBlank
    have hLength := Text.length_runes_le (Text.currentLine before)
    rw [hOffset, hSource, List.take_left, List.drop_left,
      List.takeWhile_cons_of_pos (by simpa using hNewline), Text.dropEnd_append_cons hReturn,
      List.length_append, List.length_cons]
    simp only [hKind, false_and, iff_false]
    omega

end Tokens

end Runsheet
