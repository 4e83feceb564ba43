import Runsheet.Proofs.Token.Position
import Runsheet.Proofs.Token.Writing

/-! What the scanner reads at any place of any source. Beside the symbols there are three kinds of
bytes that make none; together they are everything, so a step of the scanner has two forms only: a
lexeme after a gap, or the end. -/
namespace Runsheet

namespace Scan

/-- The bytes between an opening quote and the newline or the end that comes before a closing one.
A backslash at the very end takes nothing along. -/
inductive Unclosed (quote : UInt8) : Text → Text → Prop
  | ended : Unclosed quote [] []
  | line (t : Text) : Unclosed quote [] (10 :: t)
  | dangling : Unclosed quote [92] []
  | plain {b : UInt8} {t after : Text} (hQuote : b ≠ quote) (hLine : b ≠ 10) (hEscape : b ≠ 92)
      (h : Unclosed quote t after) : Unclosed quote (b :: t) after
  | escape (b : UInt8) {t after : Text} (h : Unclosed quote t after) :
      Unclosed quote (92 :: b :: t) after

/-- Some symbol is written with the byte first. -/
def StartsSymbol (b : UInt8) : Prop := ∃ kind value t, Written kind value (b :: t)

/-- The bytes that make no symbol, for each fault, and what comes after them. -/
inductive Refused : ScanFault → Text → Text → Prop
  | unterminatedString {quote : UInt8} {t after : Text} (hQuote : quote = 34 ∨ quote = 39)
      (h : Unclosed quote t after) : Refused .unterminatedString (quote :: t) after
  | missingOptionName {dashes after : Text} (hDashes : ∀ c ∈ dashes, c = 45)
      (hAfter : Apart after) : Refused .missingOptionName (45 :: dashes) after
  | unexpectedCharacter {r : Rune} {b : UInt8} {t after : Text}
      (hRune : Text.runes (b :: t ++ after) = r :: after.runes) (hStart : ¬ StartsSymbol b) :
      Refused .unexpectedCharacter (b :: t) after

/-- The bytes of a lexeme of a kind, and what comes after them. -/
inductive Lexed : TokenKind → Option ScanFault → Text → Text → Prop
  | written {kind : TokenKind} {value bytes after : Text} (h : Written kind value bytes)
      (hApart : Word kind bytes → Apart after) : Lexed kind none bytes after
  | refused {fault : ScanFault} {bytes after : Text} (h : Refused fault bytes after) :
      Lexed .illegal (some fault) bytes after

/-- A gap that is followed by something ends with a blank. -/
theorem Gap.last_blank {g : Text} (h : Gap false g) (hGap : g ≠ []) :
    ∃ s b, g = s ++ [b] ∧ isBlankByte b = true := by
  generalize hEnd : false = atEnd at h
  induction h with
  | nil => exact absurd rfl hGap
  | @blank atEnd b t hb h ih =>
      by_cases ht : t = []
      · exact ⟨[], b, by rw [ht]; rfl, hb⟩
      · obtain ⟨s, c, hText, hc⟩ := ih ht hEnd
        exact ⟨b :: s, c, by rw [hText]; rfl, hc⟩
  | @comment atEnd words t hWords h ih =>
      by_cases ht : t = []
      · exact ⟨35 :: words, 10, by rw [ht]; rfl, rfl⟩
      · obtain ⟨s, c, hText, hc⟩ := ih ht hEnd
        exact ⟨35 :: (words ++ 10 :: s), c, by rw [hText]; simp, hc⟩
  | lastComment => cases hEnd

section strings

variable {quote : UInt8} {t after rest : Text}

/-- The scanner reads up to where it gives up. -/
theorem Unclosed.body (h : Unclosed quote t after) (hQuote : quote = 34 ∨ quote = 39) :
    stringBody quote (t ++ after) = (t.length, false) := by
  have hEscape : quote ≠ 92 := by rcases hQuote with rfl | rfl <;> decide
  have hNewline : quote ≠ 10 := by rcases hQuote with rfl | rfl <;> decide
  induction h with
  | ended => rfl
  | line t => cases t <;> simp [stringBody, hNewline.symm]
  | dangling => simp [stringBody, hEscape.symm]
  | @plain b t after hb hLine hEscape h ih =>
      cases hRest : t ++ after with
      | nil =>
          obtain ⟨rfl, rfl⟩ := List.append_eq_nil_iff.mp hRest
          simp [stringBody, hb, hLine]
      | cons c more =>
          rw [hRest] at ih
          rw [List.cons_append, hRest]
          simp [stringBody, hb, hLine, hEscape, ih]
  | escape b h ih => simp [stringBody, hEscape.symm, ih]

/-- What is not closed ends with the line or with the source. -/
theorem exists_unclosed {n : Nat} (h : stringBody quote rest = (n, false)) :
    ∃ t after, rest = t ++ after ∧ n = t.length ∧ Unclosed quote t after := by
  fun_induction stringBody quote rest generalizing n with
  | case1 =>
      obtain ⟨rfl, -⟩ := Prod.mk.inj h
      exact ⟨[], [], rfl, rfl, .ended⟩
  | case2 => cases h
  | case3 =>
      obtain ⟨rfl, -⟩ := Prod.mk.inj h
      exact ⟨[], _, rfl, rfl, .line []⟩
  | case4 b hb hLine =>
      obtain ⟨rfl, -⟩ := Prod.mk.inj h
      refine ⟨[b], [], rfl, rfl, ?_⟩
      by_cases hEscape : b = 92
      · subst hEscape
        exact .dangling
      · exact .plain hb hLine hEscape .ended
  | case5 => cases h
  | case6 c rest =>
      obtain ⟨rfl, -⟩ := Prod.mk.inj h
      exact ⟨[], _, rfl, rfl, .line (c :: rest)⟩
  | case7 c rest n closed hBody hb hLine ih =>
      obtain ⟨rfl, rfl⟩ := Prod.mk.inj h
      obtain ⟨t, after, rfl, rfl, hUnclosed⟩ := ih hBody
      exact ⟨92 :: c :: t, after, rfl, rfl, .escape c hUnclosed⟩
  | case8 b c rest hb hLine hEscape n closed hBody ih =>
      obtain ⟨rfl, rfl⟩ := Prod.mk.inj h
      obtain ⟨t, after, hRest, rfl, hUnclosed⟩ := ih hBody
      exact ⟨b :: t, after, by rw [hRest, List.cons_append], rfl, .plain hb hLine hEscape hUnclosed⟩

theorem Unclosed.after_cases (h : Unclosed quote t after) : after = [] ∨ ∃ more, after = 10 :: more := by
  induction h with
  | ended => exact Or.inl rfl
  | line more => exact Or.inr ⟨more, rfl⟩
  | dangling => exact Or.inl rfl
  | plain _ _ _ _ ih => exact ih
  | escape _ _ ih => exact ih

end strings

section starts

variable {kind : TokenKind} {b : UInt8} {t : Text}

theorem Word.head_start (h : Word kind (b :: t)) :
    isNameStart b = true ∨ isDigitByte b = true ∨ b = 45 := by
  generalize hText : b :: t = word at h
  cases h with
  | keyword k =>
      obtain ⟨c, more, hKeyword, hStart, -⟩ := keyword_shape k
      obtain ⟨rfl, -⟩ := List.cons.inj (hText.trans hKeyword)
      exact Or.inl hStart
  | name hStart =>
      obtain ⟨rfl, -⟩ := List.cons.inj hText
      exact Or.inl hStart
  | number h =>
      obtain ⟨c, more, rfl, hc⟩ := h.head_digit
      obtain ⟨rfl, -⟩ := List.cons.inj hText
      exact Or.inr (Or.inl hc)
  | negative => exact Or.inr (Or.inr (List.cons.inj hText).1)
  | option => exact Or.inr (Or.inr (List.cons.inj hText).1)

/-- Words, strings and signs each have bytes of their own to start with. -/
theorem startsSymbol_iff : StartsSymbol b ↔
    (isNameStart b = true ∨ isDigitByte b = true ∨ b = 45) ∨ (b = 34 ∨ b = 39) ∨
      ∃ kind, signByte kind = some b := by
  constructor
  · rintro ⟨kind, value, t, h⟩
    generalize hBytes : b :: t = bytes at h
    cases h with
    | sign h =>
        obtain ⟨rfl, -⟩ := List.cons.inj hBytes
        exact Or.inr (Or.inr ⟨kind, h⟩)
    | word h => exact Or.inl (Word.head_start (hBytes ▸ h))
    | string hQuote =>
        obtain ⟨rfl, -⟩ := List.cons.inj hBytes
        exact Or.inr (Or.inl hQuote)
  · rintro (hWord | hQuote | ⟨kind, h⟩)
    · rcases word_or_dashes hWord (t := []) nofun with ⟨kind, h⟩ | ⟨rfl, -⟩
      · exact ⟨kind, _, [], .word h⟩
      · have hOption : Word .option [45, 97] :=
          @Word.option [] [] 97 nofun (List.all_eq_true.mp rfl) (by decide) fun _ => rfl
        exact ⟨.option, _, [97], .word hOption⟩
    · exact ⟨.string, [], [b], .string hQuote .nil⟩
    · exact ⟨kind, [], [], .sign h⟩

end starts

section lexemes

variable {kind : TokenKind} {fault : Option ScanFault} {b : UInt8} {t after rest : Text}

theorem signByte_ne_some (h : ¬ StartsSymbol b) (kind : TokenKind) : signByte kind ≠ some b :=
  fun hSign => h (startsSymbol_iff.mpr (Or.inr (Or.inr ⟨kind, hSign⟩)))

/-- The scanner refuses a byte that starts no symbol, with the rune that it begins. -/
theorem lexeme_unexpected (h : ¬ StartsSymbol b) :
    lexeme b rest =
      { kind := .illegal, more := (Rune.first b rest).2, fault := some .unexpectedCharacter } := by
  have hOther := h
  simp only [startsSymbol_iff, not_or, Bool.not_eq_true] at hOther
  obtain ⟨⟨hStart, hDigit, hDash⟩, ⟨hDouble, hSingle⟩, -⟩ := hOther
  have hColon : b ≠ 58 := fun hb => signByte_ne_some h .colon (hb ▸ rfl)
  have hSemicolon : b ≠ 59 := fun hb => signByte_ne_some h .semicolon (hb ▸ rfl)
  have hComma : b ≠ 44 := fun hb => signByte_ne_some h .comma (hb ▸ rfl)
  have hBar : b ≠ 124 := fun hb => signByte_ne_some h .bar (hb ▸ rfl)
  have hEquals : b ≠ 61 := fun hb => signByte_ne_some h .equals (hb ▸ rfl)
  simp only [lexeme, hStart, hDigit, hDouble, hSingle, or_self, Bool.false_eq_true, if_false,
    if_neg hDash, if_neg hColon, if_neg hSemicolon, if_neg hComma, if_neg hBar, if_neg hEquals]

theorem bytes_of_runes {r : Rune} (h : Text.runes (b :: t ++ after) = r :: after.runes) :
    b :: t = r.bytes := by
  have hBytes := congrArg Text.ofRunes h
  rw [Text.ofRunes_runes, Text.ofRunes, List.flatMap_cons, ← Text.ofRunes, Text.ofRunes_runes]
    at hBytes
  exact List.append_cancel_right hBytes

/-- A rune in front of a text is read with as many bytes as it has. -/
theorem first_of_runes {r : Rune} (h : Text.runes (b :: t ++ after) = r :: after.runes) :
    (Rune.first b (t ++ after)).2 = t.length := by
  rw [List.cons_append, Text.runes_cons, Text.runesAfter_eq_drop] at h
  have hRest := congrArg Text.ofRunes (List.cons.inj h).2
  rw [Text.ofRunes_runes, Text.ofRunes_runes] at hRest
  have hLength := congrArg List.length hRest
  have hMost := Rune.first_snd_le b (t ++ after)
  rw [List.length_drop] at hLength
  rw [List.length_append] at hLength hMost
  omega

theorem Refused.lexeme {fault : ScanFault} (h : Refused fault (b :: t) after) :
    lexeme b (t ++ after) = { kind := .illegal, more := t.length, fault := some fault } := by
  cases h with
  | unterminatedString hQuote h => rw [lexeme_quote hQuote, stringLexeme, h.body hQuote]
  | missingOptionName hDashes hAfter => exact lexeme_dashes_only hDashes hAfter
  | unexpectedCharacter hRune hStart => rw [lexeme_unexpected hStart, first_of_runes hRune]

/-- The scanner reads a lexeme as what it is. -/
theorem Lexed.lexeme (h : Lexed kind fault (b :: t) after) :
    lexeme b (t ++ after) = { kind, more := t.length, fault } := by
  cases h with
  | written h hApart => exact h.lexeme hApart
  | refused h => exact h.lexeme

/-- Some lexeme stands in front of every text. -/
theorem exists_lexed (b : UInt8) (rest : Text) :
    ∃ kind fault t after, rest = t ++ after ∧ Lexed kind fault (b :: t) after := by
  by_cases hWord : isNameStart b = true ∨ isDigitByte b = true ∨ b = 45
  · obtain ⟨t, after, rfl, hParts, hApart⟩ := exists_run isNamePart rest
    rcases word_or_dashes hWord hParts with ⟨kind, h⟩ | ⟨rfl, hDashes⟩
    · exact ⟨kind, none, t, after, rfl, .written (.word h) fun _ => hApart⟩
    · exact ⟨_, _, t, after, rfl, .refused (.missingOptionName hDashes hApart)⟩
  by_cases hQuote : b = 34 ∨ b = 39
  · rcases hBody : stringBody b rest with ⟨n, _ | _⟩
    · obtain ⟨t, after, rfl, -, h⟩ := exists_unclosed hBody
      exact ⟨_, _, t, after, rfl, .refused (.unterminatedString hQuote h)⟩
    · obtain ⟨t, value, after, rfl, -, h⟩ := exists_quoted hBody
      refine ⟨.string, none, t ++ [b], after, by simp, .written (.string hQuote h) fun hWord => ?_⟩
      exact absurd rfl hWord.kind_ne.2.1
  by_cases hSign : ∃ kind, signByte kind = some b
  · obtain ⟨kind, h⟩ := hSign
    refine ⟨kind, none, [], rest, rfl, .written (.sign h) fun hWord => ?_⟩
    exact absurd hWord (not_word_of_sign h)
  · have hStart : ¬ StartsSymbol b := by
      rw [startsSymbol_iff]
      exact not_or.mpr ⟨hWord, not_or.mpr ⟨hQuote, hSign⟩⟩
    have hSplit := List.take_append_drop (Rune.first b rest).2 rest
    have hRune : Text.runes (b :: rest.take (Rune.first b rest).2 ++ rest.drop (Rune.first b rest).2) =
        (Rune.first b rest).1 :: Text.runes (rest.drop (Rune.first b rest).2) := by
      rw [List.cons_append, hSplit, Text.runes_cons, Text.runesAfter_eq_drop]
    exact ⟨_, _, _, _, hSplit.symm, .refused (.unexpectedCharacter hRune hStart)⟩

theorem Word.kind_ne_illegal (h : Word kind t) : kind ≠ .illegal := by
  cases h with
  | keyword k => nofun
  | name => nofun
  | number h => rcases h.kind_cases with rfl | rfl | rfl <;> nofun
  | negative h => rcases h.kind_cases with rfl | rfl | rfl <;> nofun
  | option => nofun

theorem Written.kind_ne_illegal {value : Text} (h : Written kind value t) : kind ≠ .illegal := by
  cases h with
  | sign h =>
      rintro rfl
      cases h
  | word h => exact h.kind_ne_illegal
  | string => nofun

theorem Lexed.kind_ne_eof {bytes : Text} (h : Lexed kind fault bytes after) : kind ≠ .eof := by
  cases h with
  | written h => exact h.kind_ne_eof
  | refused => nofun

/-- What is not refused is written. -/
theorem Lexed.written_of_legal {bytes : Text} (h : Lexed kind fault bytes after)
    (hLegal : kind ≠ .illegal) :
    fault = none ∧ ∃ value, Written kind value bytes ∧ (Word kind bytes → Apart after) := by
  cases h with
  | written h hApart => exact ⟨rfl, _, h, hApart⟩
  | refused => exact absurd rfl hLegal

theorem Lexed.cons {bytes : Text} (h : Lexed kind fault bytes after) :
    ∃ b t, bytes = b :: t := by
  cases h with
  | written h =>
      obtain ⟨b, t, hBytes, -⟩ := h.head_solid
      exact ⟨b, t, hBytes⟩
  | refused h => cases h <;> exact ⟨_, _, rfl⟩

end lexemes

end Scan

namespace Cursor

open Scan

/-- One call of the scanner: a lexeme after a gap becomes a token, and when only a gap is left the
end token comes. -/
inductive Step (c : Cursor) : Token → Cursor → Prop
  | last (hGap : Gap true c.rest) :
      Step c ⟨.eof, none, c.position.after c.rest, decide (c.rest ≠ []), none⟩
        ⟨[], c.position.after c.rest⟩
  | token {kind : TokenKind} {fault : Option ScanFault} {gap bytes after : Text}
      (hRest : c.rest = gap ++ (bytes ++ after)) (hGap : Gap false gap)
      (hLexed : Lexed kind fault bytes after) :
      Step c ⟨kind, if isPunctuation kind then none else some bytes, c.position.after gap,
          decide (gap ≠ []), fault⟩
        ⟨after, (c.position.after gap).after bytes⟩

/-- A lexeme after a gap is the next token. -/
theorem next_eq_of_lexed {c : Cursor} {kind : TokenKind} {fault : Option ScanFault} {b : UInt8}
    {gap t after : Text} (hRest : c.rest = gap ++ (b :: t ++ after)) (hGap : Gap false gap)
    (hBlank : isBlankByte b = false) (hMark : b ≠ 35) (hLexed : Lexed kind fault (b :: t) after) :
    c.next = (⟨kind, if isPunctuation kind then none else some (b :: t), c.position.after gap,
        decide (gap ≠ []), fault⟩,
      ⟨after, (c.position.after gap).after (b :: t)⟩) := by
  have hSpaced : decide (0 < gap.length) = decide (gap ≠ []) := by simp [List.length_pos_iff]
  rw [next_eq_of_gap hRest hGap hBlank hMark, List.append_eq, hLexed.lexeme, hSpaced, List.take_left,
    List.drop_left]

theorem next_eq_of_written {c : Cursor} {kind : TokenKind} {gap value bytes after : Text}
    (hRest : c.rest = gap ++ (bytes ++ after)) (hGap : Gap false gap)
    (hWritten : Written kind value bytes) (hApart : Word kind bytes → Apart after) :
    c.next = (⟨kind, if isPunctuation kind then none else some bytes, c.position.after gap,
        decide (gap ≠ []), none⟩,
      ⟨after, (c.position.after gap).after bytes⟩) := by
  obtain ⟨b, t, rfl, hBlank, hMark⟩ := hWritten.head_solid
  exact next_eq_of_lexed hRest hGap hBlank hMark (.written hWritten hApart)

theorem step_next (c : Cursor) : Step c c.next.1 c.next.2 := by
  obtain ⟨gap, rest, hRest, -, ⟨rfl, hGap⟩ | ⟨hGap, b, more, rfl, hBlank, hMark⟩⟩ := exists_gap c.rest
  · rw [List.append_nil] at hRest
    rw [← hRest] at hGap
    have hSpaced : decide (0 < c.rest.length) = decide (c.rest ≠ []) := by
      simp [List.length_pos_iff]
    rw [next_eq_of_end hGap, hSpaced]
    exact .last hGap
  · obtain ⟨kind, fault, t, after, rfl, hLexed⟩ := exists_lexed b more
    rw [next_eq_of_lexed hRest hGap hBlank hMark hLexed]
    exact .token hRest hGap hLexed

end Cursor

end Runsheet
