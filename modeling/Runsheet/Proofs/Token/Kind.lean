import Runsheet.Proofs.Token.Tiling
import Runsheet.Proofs.Token.Utf8

/-! The kinds of tokens. The kind of a word is read off its bytes alone, by one regular grammar, and
words do not touch; what is refused has one of three forms, and whatever has one of them is refused. -/
namespace Runsheet

/-- An ASCII byte among the bytes of a rune is all of them. -/
theorem Rune.bytes_eq_of_mem {r : Rune} {b : UInt8} (hb : b < 0x80) (h : b ∈ r.bytes) :
    r.bytes = [b] := by
  cases r with
  | char x =>
      obtain rfl := eq_ofNat_of_mem_encode hb h
      exact Rune.bytes_one (UInt8.lt_iff_toNat_lt.mp hb)
  | invalid c => rw [List.mem_singleton.mp h, Rune.bytes]

namespace Scan

section grammar

variable {kind : TokenKind} {t : Text}

instance (t : Text) : Decidable (Digits t) := inferInstanceAs (Decidable (_ ∧ _))

theorem decimal_iff : Decimal t ↔
    ∃ n ∈ List.range t.length, Digits (t.take n) ∧ t[n]? = some 46 ∧ Digits (t.drop (n + 1)) := by
  constructor
  · rintro ⟨whole, fraction, rfl, hWhole, hFraction⟩
    refine ⟨whole.length, by simp, ?_⟩
    simpa using ⟨hWhole, hFraction⟩
  · rintro ⟨n, -, hWhole, hPoint, hFraction⟩
    obtain ⟨hn, hPoint⟩ := List.getElem?_eq_some_iff.mp hPoint
    refine ⟨t.take n, t.drop (n + 1), ?_, hWhole, hFraction⟩
    rw [← hPoint, List.getElem_cons_drop, List.take_append_drop]

instance (t : Text) : Decidable (Decimal t) := decidable_of_iff _ decimal_iff.symm

/-- The kind of what follows the sign of a number, if there is one: digits, digits with decimals,
anything else that begins with a digit, or no number at all. -/
def unsignedKind (t : Text) : TokenKind :=
  if Digits t then .integer
  else if Decimal t then .double
  else if t.head?.any isDigitByte then .name
  else .option

/-- The kind of a word by its bytes. -/
def kindOf : Text → TokenKind
  | [] => .unknown
  | b :: t =>
    if isNameStart b then wordKind (b :: t)
    else if b = 45 then unsignedKind t
    else unsignedKind (b :: t)

theorem Decimal.not_digits (h : Decimal t) : ¬ Digits t := by
  obtain ⟨whole, fraction, rfl, -, -⟩ := h
  intro hDigits
  exact absurd (hDigits.2 46 (by simp)) (by decide)

theorem Number.unsignedKind_eq (h : Number kind t) : unsignedKind t = kind := by
  cases h with
  | integer h => rw [unsignedKind, if_pos h]
  | double h => rw [unsignedKind, if_neg h.not_digits, if_pos h]
  | name hDigit _ hInteger hDouble =>
      rw [unsignedKind, if_neg hInteger, if_neg hDouble, List.head?_cons, Option.any_some,
        if_pos hDigit]

theorem unsignedKind_option (h : ∀ b ∈ t.head?, isDigitByte b = false) :
    unsignedKind t = .option := by
  have hNumber : ∀ kind, ¬ Number kind t := by
    intro kind hNumber
    obtain ⟨b, more, rfl, hDigit⟩ := hNumber.head_digit
    exact absurd ((h b rfl).symm.trans hDigit) Bool.false_ne_true
  have hName : ¬ t.head?.any isDigitByte = true := by
    rw [Option.any_eq_true]
    rintro ⟨b, hb, hDigit⟩
    exact absurd ((h b hb).symm.trans hDigit) Bool.false_ne_true
  rw [unsignedKind, if_neg fun h => hNumber _ (.integer h), if_neg fun h => hNumber _ (.double h),
    if_neg hName]

/-- The bytes of a word tell its kind. -/
theorem Word.kindOf_eq (h : Word kind t) : kindOf t = kind := by
  cases h with
  | keyword k => cases k <;> decide
  | name hStart _ hKeyword => rw [kindOf, if_pos hStart, wordKind_name hKeyword]
  | number h =>
      obtain ⟨b, more, rfl, hb⟩ := h.head_digit
      have hStart : ¬ isNameStart b = true := by simp [isNameStart_of_digit hb]
      have hSign : b ≠ 45 := by
        rintro rfl
        exact absurd hb (by decide)
      rw [kindOf, if_neg hStart, if_neg hSign, h.unsignedKind_eq]
  | negative h => exact h.unsignedKind_eq
  | @option dashes more b hDashes hParts hFirst hDigit =>
      refine unsignedKind_option fun c hc => ?_
      cases dashes with
      | nil =>
          obtain rfl : b = c := Option.some.inj hc
          exact hDigit rfl
      | cons d dashes =>
          obtain rfl : d = c := Option.some.inj hc
          rw [hDashes d List.mem_cons_self]
          rfl

example : kindOf "case" = .keyword .case ∧ kindOf "-12.50" = .double ∧ kindOf "12pt" = .name ∧
    kindOf "--5" = .option := by decide +kernel

theorem Word.ne_dash_of_option (h : Word .option t) : ∃ b ∈ t, b ≠ 45 := by
  cases h with
  | number h => rcases h.kind_cases with h | h | h <;> cases h
  | negative h => rcases h.kind_cases with h | h | h <;> cases h
  | option _ _ hFirst => exact ⟨_, by simp, hFirst⟩

end grammar

section faults

variable {kind : TokenKind} {fault : Option ScanFault} {bytes gap after : Text}

/-- At most one fault is found in bytes. -/
theorem Refused.unique {first second : ScanFault} (h : Refused first bytes after)
    (h' : Refused second bytes after) : first = second := by
  obtain ⟨b, t, rfl⟩ := (Lexed.refused h).cons
  have hFault := congrArg Lexeme.fault (h.lexeme.symm.trans h'.lexeme)
  exact Option.some.inj hFault

/-- A lexeme is illegal if and only if a fault is found in its bytes. -/
theorem Lexed.illegal_iff (h : Lexed kind fault bytes after) :
    kind = .illegal ↔ ∃! fault, Refused fault bytes after := by
  constructor
  · rintro rfl
    cases h with
    | written h => exact absurd rfl h.kind_ne_illegal
    | refused h => exact ⟨_, h, fun _ h' => h'.unique h⟩
  · rintro ⟨fault', hRefused, -⟩
    obtain ⟨b, t, rfl⟩ := h.cons
    exact congrArg Lexeme.kind (h.lexeme.symm.trans hRefused.lexeme)

/-- No lexeme stops between two dashes. -/
theorem Lexed.dashes (h : Lexed kind fault bytes after) (hLast : bytes.getLast? = some 45) :
    after.head? ≠ some 45 := by
  intro hNext
  have hDash : ¬ Apart after := fun hApart => absurd (hApart 45 hNext) (by decide)
  cases h with
  | written h hApart =>
      cases h with
      | sign h =>
          obtain rfl := Option.some.inj hLast
          cases kind <;> cases h
      | word h => exact hDash (hApart h)
      | @string quote t value hQuote h =>
          rw [← List.cons_append, List.getLast?_concat] at hLast
          obtain rfl := Option.some.inj hLast
          rcases hQuote with h | h <;> cases h
  | refused h =>
      cases h with
      | unterminatedString _ h =>
          rcases h.after_cases with rfl | ⟨t, rfl⟩ <;> cases hNext
      | missingOptionName _ hAfter => exact hDash hAfter
      | @unexpectedCharacter r b t _ hRune hStart =>
          have hMem := List.mem_of_getLast? hLast
          rw [bytes_of_runes hRune] at hMem
          have hBytes := (bytes_of_runes hRune).trans (Rune.bytes_eq_of_mem (by decide) hMem)
          obtain rfl := (List.cons.inj hBytes).1
          exact hStart (startsSymbol_iff.mpr (Or.inl (Or.inr (Or.inr rfl))))

end faults

end Scan

namespace Cursor

open Scan

/-- The cursor stands in the source after some bytes, and not between two dashes. -/
structure Stands (c : Cursor) (source before : Text) : Prop where
  source_eq : source = before ++ c.rest
  offset_eq : c.position.offset = before.length
  dashes : before.getLast? = some 45 → c.rest.head? ≠ some 45

variable {c : Cursor} {source before gap bytes after : Text}

/-- A gap brings the cursor to a place that is not between two dashes either. -/
theorem Stands.after_gap (h : c.Stands source before) (hRest : c.rest = gap ++ after)
    (hGap : Gap false gap) : Stands ⟨after, c.position.after gap⟩ source (before ++ gap) := by
  refine ⟨?_, ?_, fun hLast => ?_⟩
  · rw [h.source_eq, hRest, List.append_assoc]
  · rw [Position.offset_after, h.offset_eq, List.length_append]
  · by_cases hEmpty : gap = []
    · subst hEmpty
      rw [List.append_nil] at hLast
      rw [List.nil_append] at hRest
      exact hRest ▸ h.dashes hLast
    · obtain ⟨s, b, rfl, hb⟩ := hGap.last_blank hEmpty
      rw [← List.append_assoc, List.getLast?_concat] at hLast
      obtain rfl := Option.some.inj hLast
      cases hb

theorem Stands.after_lexeme {kind : TokenKind} {fault : Option ScanFault} (h : c.Stands source before)
    (hRest : c.rest = bytes ++ after) (hLexed : Lexed kind fault bytes after) :
    Stands ⟨after, c.position.after bytes⟩ source (before ++ bytes) := by
  refine ⟨?_, ?_, fun hLast => hLexed.dashes ?_⟩
  · rw [h.source_eq, hRest, List.append_assoc]
  · rw [Position.offset_after, h.offset_eq, List.length_append]
  · obtain ⟨b, t, rfl⟩ := hLexed.cons
    rwa [List.getLast?_append, List.getLast?_cons, Option.some_or, ← List.getLast?_cons] at hLast

theorem Stands.next (h : c.Stands source before) (hEnd : c.next.1.kind ≠ .eof) :
    ∃ before, c.next.2.Stands source before := by
  have hStep := c.step_next
  generalize c.next.1 = t at hStep hEnd
  generalize c.next.2 = c' at hStep
  cases hStep with
  | last => exact absurd rfl hEnd
  | token hRest hGap hLexed => exact ⟨_, (h.after_gap hRest hGap).after_lexeme rfl hLexed⟩

end Cursor

/-- Every token is read where the cursor stands in the source. -/
theorem Tokens.exists_stands {source : Text} {t : Token} (ht : t ∈ (Tokens.ofSource source).toList) :
    ∃ c before, Cursor.Stands c source before ∧ c.next.1 = t := by
  have hNext : ∀ c : Cursor, (∃ before, c.Stands source before) → c.next.1.kind ≠ .eof →
      ∃ before, c.next.2.Stands source before := fun c ⟨_, h⟩ hEnd => h.next hEnd
  have hStart : (Cursor.ofSource source).Stands source [] := ⟨rfl, rfl, nofun⟩
  obtain ⟨c, ⟨before, hStands⟩, rfl⟩ := Cursor.exists_of_mem_tokens hNext ⟨[], hStart⟩ ht
  exact ⟨c, before, hStands, rfl⟩

/-- Every token but the end was read from bytes of the source where it stands. -/
theorem Tokens.exists_lexed {source : Text} {t : Token} (ht : t ∈ (Tokens.ofSource source).toList) :
    t.kind = .eof ∧ t.text = none ∨
      ∃ before bytes after, source = before ++ (bytes ++ after) ∧
        t.position.offset = before.length ∧ t.Spells bytes ∧
        Scan.Lexed t.kind t.fault bytes after ∧
        (before.getLast? = some 45 → bytes.head? ≠ some 45) := by
  obtain ⟨c, before, hStands, rfl⟩ := exists_stands ht
  have hStep := c.step_next
  generalize c.next.1 = t at hStep
  generalize c.next.2 = c' at hStep
  cases hStep with
  | last => exact Or.inl ⟨rfl, rfl⟩
  | @token kind fault gap bytes after hRest hGap hLexed =>
      obtain ⟨hSource, hOffset, hDashes⟩ := hStands.after_gap hRest hGap
      refine Or.inr ⟨_, bytes, after, hSource, hOffset, Token.spells_of_lexed hLexed _ _, hLexed, ?_⟩
      intro hLast
      have hFirst := hDashes hLast
      obtain ⟨b, t, rfl⟩ := hLexed.cons
      exact hFirst

namespace Token

open Scan

def IsWord (t : Token) : Prop := t.kind.isWord = true ∨ t.kind = .option

/-- The grammar of a word in a source: a longest run of name bytes that begins like a word, whose
bytes tell its kind, and which is no option when it is made of dashes only. -/
structure FollowsGrammar (t : Token) (source : Text) : Prop where
  start : ∃ b more, t.raw = b :: more ∧ (isNameStart b = true ∨ isDigitByte b = true ∨ b = 45)
  parts : ∀ b ∈ t.raw, isNamePart b = true
  apart : Apart (source.drop t.stop)
  kind : t.kind = kindOf t.raw
  option : t.kind = .option → ∃ b ∈ t.raw, b ≠ 45

theorem Spells.raw_eq {t : Token} {bytes : Text} (h : t.Spells bytes)
    (hKind : isPunctuation t.kind = false) : t.raw = bytes := by
  cases h with
  | sign h => exact absurd ((signByte_spec h).1.symm.trans hKind) (by decide)
  | text _ _ hText => rw [raw, hText]; rfl

theorem Spells.drop_stop {t : Token} {before bytes after : Text} (h : t.Spells bytes)
    (hOffset : t.position.offset = before.length) :
    (before ++ (bytes ++ after)).drop t.stop = after := by
  rw [h.stop_eq hOffset, ← List.append_assoc, List.drop_left]

theorem IsWord.word {t : Token} {fault : Option ScanFault} {bytes after : Text} (h : t.IsWord)
    (hLexed : Lexed t.kind fault bytes after) : Word t.kind bytes ∧ Apart after := by
  have hString : t.kind ≠ .string ∧ t.kind ≠ .illegal ∧ isPunctuation t.kind = false := by
    rcases h with h | h
    · revert h
      cases t.kind <;> simp [TokenKind.isWord, isPunctuation]
    · rw [h]
      simp [isPunctuation]
  generalize t.kind = kind at hLexed hString
  cases hLexed with
  | written h hApart =>
      cases h with
      | sign h => exact absurd ((signByte_spec h).1.symm.trans hString.2.2) (by decide)
      | word h => exact ⟨h, hApart h⟩
      | string => exact absurd rfl hString.1
  | refused => exact absurd rfl hString.2.1

end Token

namespace Tokens

open Scan

variable {source : Text} {t u : Token}

theorem followsGrammar_of_mem (ht : t ∈ (Tokens.ofSource source).toList) (hWord : t.IsWord) :
    t.FollowsGrammar source := by
  rcases exists_lexed ht with ⟨hEnd, -⟩ | ⟨before, bytes, after, hSource, hOffset, hSpells, hLexed, -⟩
  · rcases hWord with h | h <;> rw [hEnd] at h <;> cases h
  · obtain ⟨h, hApart⟩ := hWord.word hLexed
    obtain ⟨b, more, rfl⟩ := hLexed.cons
    have hRaw := hSpells.raw_eq h.kind_ne.2.2
    refine ⟨⟨b, more, hRaw, h.head_start⟩, ?_, ?_, ?_, fun hOption => ?_⟩
    · rw [hRaw]
      exact h.isNamePart
    · rw [hSource, hSpells.drop_stop hOffset]
      exact hApart
    · rw [hRaw, h.kindOf_eq]
    · rw [hOption] at h
      rw [hRaw]
      exact h.ne_dash_of_option

theorem illegal_iff_of_mem (ht : t ∈ (Tokens.ofSource source).toList) :
    t.kind = .illegal ↔ ∃! fault, Refused fault t.raw (source.drop t.stop) := by
  have hNone : t.kind ≠ .illegal → t.raw = [] →
      (t.kind = .illegal ↔ ∃! fault, Refused fault t.raw (source.drop t.stop)) := by
    intro hKind hRaw
    refine ⟨fun h => absurd h hKind, ?_⟩
    rintro ⟨fault, hRefused, -⟩
    obtain ⟨b, more, hBytes⟩ := (Lexed.refused hRefused).cons
    rw [hRaw] at hBytes
    cases hBytes
  rcases exists_lexed ht with ⟨hEnd, hText⟩ | ⟨before, bytes, after, hSource, hOffset, hSpells, hLexed, -⟩
  · exact hNone (by rw [hEnd]; nofun) (by rw [Token.raw, hText]; rfl)
  · by_cases hSign : isPunctuation t.kind = true
    · refine hNone ?_ ?_
      · intro hKind
        rw [hKind] at hSign
        cases hSign
      · rw [Token.raw, hSpells.text_eq, if_pos (Or.inl hSign)]
        rfl
    · rw [hSpells.raw_eq (Bool.eq_false_iff.mpr hSign), hSource, hSpells.drop_stop hOffset]
      exact hLexed.illegal_iff

theorem stop_ne_of_mem (ht : t ∈ (Tokens.ofSource source).toList)
    (hu : u ∈ (Tokens.ofSource source).toList) (hWord : t.IsWord) (hNext : u.IsWord) :
    t.stop ≠ u.position.offset := by
  intro hTouch
  have hApart := (followsGrammar_of_mem ht hWord).apart
  rcases exists_lexed hu with ⟨hEnd, -⟩ | ⟨before, bytes, after, hSource, hOffset, hSpells, hLexed, -⟩
  · rcases hNext with h | h <;> rw [hEnd] at h <;> cases h
  · obtain ⟨b, more, rfl, hPart⟩ := (hNext.word hLexed).1.head_part
    rw [hTouch, hOffset, hSource, List.drop_left] at hApart
    exact absurd ((hApart b rfl).symm.trans hPart) Bool.false_ne_true

theorem not_between_dashes (ht : t ∈ (Tokens.ofSource source).toList)
    (hDash : t.raw.head? = some 45) : (source.take t.position.offset).getLast? ≠ some 45 := by
  rcases exists_lexed ht with ⟨-, hText⟩ | ⟨before, bytes, after, hSource, hOffset, hSpells, -, hDashes⟩
  · rw [Token.raw, hText] at hDash
    cases hDash
  · rw [hOffset, hSource, List.take_left]
    refine fun hLast => hDashes hLast ?_
    cases hSpells with
    | sign _ hText =>
        rw [Token.raw, hText] at hDash
        cases hDash
    | text _ _ hText =>
        rw [Token.raw, hText] at hDash
        exact hDash

/-- Words follow the grammar of words and do not touch, and the illegal tokens are those in whose
bytes a fault is found. No token that begins with a dash comes right after a dash. -/
theorem kinds_ofSource (source : Text) :
    (∀ t ∈ (Tokens.ofSource source).toList, t.IsWord → t.FollowsGrammar source) ∧
      (∀ t ∈ (Tokens.ofSource source).toList, ∀ u ∈ (Tokens.ofSource source).toList,
        t.IsWord → u.IsWord → t.stop ≠ u.position.offset) ∧
      (∀ t ∈ (Tokens.ofSource source).toList,
        t.kind = .illegal ↔ ∃! fault, Refused fault t.raw (source.drop t.stop)) ∧
      ∀ t ∈ (Tokens.ofSource source).toList, t.raw.head? = some 45 →
        (source.take t.position.offset).getLast? ≠ some 45 :=
  ⟨fun _ => followsGrammar_of_mem, fun _ ht _ => stop_ne_of_mem ht, fun _ => illegal_iff_of_mem,
    fun _ => not_between_dashes⟩

/-- A number with a unit, an option, a dash with no name and a quote that is not closed. -/
def variedWords : Text := [49, 50, 112, 116, 32, 45, 45, 53, 32, 45, 10, 39, 97]

theorem kinds_ofSource_variedWords :
    Token.FollowsGrammar ⟨.name, some [49, 50, 112, 116], ⟨1, 1, 0⟩, false, none⟩ variedWords ∧
      Token.FollowsGrammar ⟨.option, some [45, 45, 53], ⟨1, 6, 5⟩, true, none⟩ variedWords ∧
      Token.stop ⟨.name, some [49, 50, 112, 116], ⟨1, 1, 0⟩, false, none⟩ ≠ 5 ∧
      (∃! fault, Refused fault [45] [10, 39, 97]) ∧
      (∃! fault, Refused fault [39, 97] []) ∧
      (variedWords.take 5).getLast? ≠ some 45 :=
  have hName : ⟨.name, some [49, 50, 112, 116], ⟨1, 1, 0⟩, false, none⟩ ∈
      (Tokens.ofSource variedWords).toList := by decide +kernel
  have hOption : ⟨.option, some [45, 45, 53], ⟨1, 6, 5⟩, true, none⟩ ∈
      (Tokens.ofSource variedWords).toList := by decide +kernel
  have hDash : ⟨.illegal, some [45], ⟨1, 10, 9⟩, true, some .missingOptionName⟩ ∈
      (Tokens.ofSource variedWords).toList := by decide +kernel
  have hQuote : ⟨.illegal, some [39, 97], ⟨2, 1, 11⟩, true, some .unterminatedString⟩ ∈
      (Tokens.ofSource variedWords).toList := by decide +kernel
  have hKinds := kinds_ofSource variedWords
  ⟨hKinds.1 _ hName (Or.inl rfl), hKinds.1 _ hOption (Or.inr rfl),
    hKinds.2.1 _ hName _ hOption (Or.inl rfl) (Or.inr rfl), (hKinds.2.2.1 _ hDash).mp rfl,
    (hKinds.2.2.1 _ hQuote).mp rfl, hKinds.2.2.2 _ hOption rfl⟩

end Tokens

end Runsheet
