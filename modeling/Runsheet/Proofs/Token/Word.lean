import Runsheet.Token.Scan

/-! Which bytes are words. A word is a longest run of name bytes: a reserved word, a name, a number
or an option. The grammar of each is said without the scanner, which reads exactly these. -/
namespace Runsheet

namespace Scan

def Digits (t : Text) : Prop := t ≠ [] ∧ ∀ b ∈ t, isDigitByte b = true

/-- Digits, a point and digits. -/
def Decimal (t : Text) : Prop :=
  ∃ whole fraction, t = whole ++ 46 :: fraction ∧ Digits whole ∧ Digits fraction

/-- What a digit starts: a number, or a name such as `12pt` when it goes on otherwise. -/
inductive Number : TokenKind → Text → Prop
  | integer {t : Text} (h : Digits t) : Number .integer t
  | double {t : Text} (h : Decimal t) : Number .double t
  | name {b : UInt8} {t : Text} (hDigit : isDigitByte b = true)
      (hParts : ∀ c ∈ t, isNamePart c = true) (hInteger : ¬ Digits (b :: t))
      (hDouble : ¬ Decimal (b :: t)) : Number .name (b :: t)

/-- The words of each kind. -/
inductive Word : TokenKind → Text → Prop
  | keyword (k : Keyword) : Word (.keyword k) (Text.ofString k.spelling)
  | name {b : UInt8} {t : Text} (hStart : isNameStart b = true)
      (hParts : ∀ c ∈ t, isNamePart c = true) (hKeyword : ∀ k : Keyword, b :: t ≠ Text.ofString k.spelling) :
      Word .name (b :: t)
  | number {kind : TokenKind} {t : Text} (h : Number kind t) : Word kind t
  | negative {kind : TokenKind} {t : Text} (h : Number kind t) : Word kind (45 :: t)
  | option {dashes t : Text} {b : UInt8} (hDashes : ∀ c ∈ dashes, c = 45)
      (hParts : ∀ c ∈ b :: t, isNamePart c = true) (hFirst : b ≠ 45)
      (hDigit : dashes = [] → isDigitByte b = false) : Word .option (45 :: (dashes ++ b :: t))

/-- What follows does not go on with a word. -/
def Apart (rest : Text) : Prop := ∀ b ∈ rest.head?, isNamePart b = false

theorem apart_cons {b : UInt8} {t : Text} (h : isNamePart b = false) : Apart (b :: t) := by
  rintro c ⟨⟩
  exact h

section bytes

variable {b : UInt8}

theorem isNamePart_of_start (h : isNameStart b = true) : isNamePart b = true := by
  simp [isNamePart, h]

theorem isNamePart_of_digit (h : isDigitByte b = true) : isNamePart b = true := by
  simp [isNamePart, h]

theorem isNameStart_of_digit (h : isDigitByte b = true) : isNameStart b = false := by
  grind [isDigitByte, isNameStart, isLetterByte]

theorem isDigitByte_of_not_part (h : isNamePart b = false) : isDigitByte b = false := by
  simp only [isNamePart, Bool.or_eq_false_iff] at h
  exact h.1.1.2

end bytes

section runs

variable {p : UInt8 → Bool} {own rest : Text}

theorem takeWhile_append_of_stop (hOwn : ∀ b ∈ own, p b = true)
    (hRest : ∀ b ∈ rest.head?, p b = false) : (own ++ rest).takeWhile p = own := by
  have hStop : rest.takeWhile p = [] := by
    cases rest with
    | nil => rfl
    | cons b rest => simp [hRest b rfl]
  rw [List.takeWhile_append_of_pos hOwn, hStop, List.append_nil]

theorem run_append (hOwn : ∀ b ∈ own, p b = true) (hRest : ∀ b ∈ rest.head?, p b = false) :
    run p (own ++ rest) = own.length := by
  rw [run, takeWhile_append_of_stop hOwn hRest]

theorem run_eq_zero (hRest : ∀ b ∈ rest.head?, p b = false) : run p rest = 0 :=
  @run_append p [] rest (by simp) hRest

/-- Every text is a longest run of bytes with a property, and a rest. -/
theorem exists_run (p : UInt8 → Bool) (t : Text) :
    ∃ own rest, t = own ++ rest ∧ (∀ b ∈ own, p b = true) ∧ ∀ b ∈ rest.head?, p b = false := by
  refine ⟨t.takeWhile p, t.dropWhile p, List.takeWhile_append_dropWhile.symm, fun b hb => ?_, ?_⟩
  · exact List.all_eq_true.mp List.all_takeWhile b hb
  · intro b hb
    have hStop := List.head?_dropWhile_not p t
    rw [hb] at hStop
    exact hStop

end runs

section numbers

variable {whole fraction more : Text}

/-- A number without decimals ends with its digits, unless name bytes follow. -/
theorem numberLexeme_whole (hWhole : ∀ b ∈ whole, isDigitByte b = true)
    (hMore : ∀ b ∈ more.head?, isDigitByte b = false)
    (hPoint : ∀ b t, more = 46 :: b :: t → isDigitByte b = false) :
    numberLexeme (whole ++ more) =
      if run isNamePart more = 0 then (.integer, whole.length)
      else (.name, whole.length + run isNamePart more) := by
  simp only [numberLexeme, run_append hWhole hMore, List.drop_left]
  split
  · rename_i rest
    have hNone : run isDigitByte rest = 0 := by
      refine run_eq_zero fun b hb => ?_
      obtain ⟨t, rfl⟩ := List.head?_eq_some_iff.mp hb
      exact hPoint b t rfl
    simp only [if_pos hNone, List.drop_left]
  · simp only [List.drop_left]

/-- A number with decimals ends with them, unless name bytes follow. -/
theorem numberLexeme_point (hWhole : ∀ b ∈ whole, isDigitByte b = true) (hFraction : Digits fraction)
    (hMore : ∀ b ∈ more.head?, isDigitByte b = false) :
    numberLexeme (whole ++ 46 :: (fraction ++ more)) =
      if run isNamePart more = 0 then (.double, whole.length + 1 + fraction.length)
      else (.name, whole.length + 1 + fraction.length + run isNamePart more) := by
  have hPoint : ∀ b ∈ (46 :: (fraction ++ more)).head?, isDigitByte b = false := by
    rintro b ⟨⟩
    decide
  have hLength : fraction.length ≠ 0 := mt List.length_eq_zero_iff.mp hFraction.1
  have hDrop : (whole ++ 46 :: (fraction ++ more)).drop (whole.length + 1 + fraction.length) =
      more := by
    rw [show whole ++ 46 :: (fraction ++ more) = (whole ++ 46 :: fraction) ++ more by simp]
    exact List.drop_left' (by simp; omega)
  simp only [numberLexeme, run_append hWhole hPoint, List.drop_left, run_append hFraction.2 hMore,
    if_neg hLength, hDrop]

/-- A longest run of digits after a digit is not empty. -/
theorem digits_of_run {b : UInt8} {t : Text} (hb : isDigitByte b = true)
    (hText : b :: t = whole ++ more) (hWhole : ∀ c ∈ whole, isDigitByte c = true)
    (hMore : ∀ c ∈ more.head?, isDigitByte c = false) : Digits whole := by
  refine ⟨?_, hWhole⟩
  rintro rfl
  rw [List.nil_append] at hText
  have hNone := hMore b (hText ▸ rfl)
  rw [hb] at hNone
  exact nomatch hNone

/-- Name bytes that follow a number make the whole a name. -/
theorem numberLexeme_name {b : UInt8} {t rest : Text} (hb : isDigitByte b = true)
    (hParts : ∀ c ∈ b :: t, isNamePart c = true) (hInteger : ¬ Digits (b :: t))
    (hDouble : ¬ Decimal (b :: t)) (hRest : Apart rest) :
    numberLexeme (b :: t ++ rest) = (.name, (b :: t).length) := by
  obtain ⟨whole, more, hText, hWhole, hMore⟩ := exists_run isDigitByte (b :: t)
  have hDigits := digits_of_run hb hText hWhole hMore
  rw [hText] at hParts hInteger hDouble ⊢
  obtain ⟨c, tail, rfl⟩ : ∃ c tail, more = c :: tail :=
    List.exists_cons_of_ne_nil fun hNil => hInteger (by simpa [hNil] using hDigits)
  rw [List.append_assoc]
  -- A point belongs to the number only with a digit after it. Otherwise the digits are followed by
  -- the name bytes at once.
  by_cases hPoint : c = 46 ∧ ∃ d more, tail = d :: more ∧ isDigitByte d = true
  · obtain ⟨rfl, d, more, rfl, hd⟩ := hPoint
    obtain ⟨fraction, last, hTail, hFraction, hLast⟩ := exists_run isDigitByte (d :: more)
    have hDecimals := digits_of_run hd hTail hFraction hLast
    rw [hTail] at hParts hDouble ⊢
    obtain ⟨e, last, rfl⟩ : ∃ e tail, last = e :: tail :=
      List.exists_cons_of_ne_nil fun hNil =>
        hDouble ⟨whole, fraction, by rw [hNil, List.append_nil], hDigits, hDecimals⟩
    have hRun : run isNamePart (e :: last ++ rest) = last.length + 1 :=
      run_append (fun g hg => hParts g (by simp_all)) hRest
    have hStop : ∀ g ∈ (e :: last ++ rest).head?, isDigitByte g = false := hLast
    rw [List.cons_append, List.append_assoc, numberLexeme_point hWhole hDecimals hStop, hRun,
      if_neg (Nat.succ_ne_zero _)]
    simp
    omega
  · have hDigit : ∀ d more, c :: tail ++ rest = 46 :: d :: more → isDigitByte d = false := by
      rintro d more hEq
      obtain ⟨rfl, hTail⟩ := List.cons.inj hEq
      cases tail with
      | nil => exact isDigitByte_of_not_part (hRest d (List.head?_eq_some_iff.mpr ⟨more, hTail⟩))
      | cons f tail =>
          obtain ⟨rfl, -⟩ := List.cons.inj hTail
          exact Bool.eq_false_iff.mpr fun hf => hPoint ⟨rfl, f, tail, rfl, hf⟩
    have hRun : run isNamePart (c :: tail ++ rest) = tail.length + 1 :=
      run_append (fun d hd => hParts d (List.mem_append_right _ hd)) hRest
    have hStop : ∀ d ∈ (c :: tail ++ rest).head?, isDigitByte d = false := hMore
    rw [numberLexeme_whole hWhole hStop hDigit, hRun, if_neg (Nat.succ_ne_zero _)]
    simp

/-- A number is read to its end. -/
theorem Number.lexeme {kind : TokenKind} {t rest : Text} (h : Number kind t) (hRest : Apart rest) :
    numberLexeme (t ++ rest) = (kind, t.length) := by
  have hDigit : ∀ b ∈ rest.head?, isDigitByte b = false := fun b hb =>
    isDigitByte_of_not_part (hRest b hb)
  cases h with
  | integer h =>
      have hPoint : ∀ b t, rest = 46 :: b :: t → isDigitByte b = false := by
        rintro b t rfl
        exact absurd (hRest 46 rfl) (by decide)
      rw [numberLexeme_whole h.2 hDigit hPoint, if_pos (run_eq_zero hRest)]
  | double h =>
      obtain ⟨whole, fraction, rfl, hWhole, hFraction⟩ := h
      rw [List.append_assoc, List.cons_append, numberLexeme_point hWhole.2 hFraction hDigit,
        if_pos (run_eq_zero hRest)]
      simp
      omega
  | name hb hParts hInteger hDouble =>
      refine numberLexeme_name hb (fun c hc => ?_) hInteger hDouble hRest
      rcases List.mem_cons.mp hc with rfl | hc
      · exact isNamePart_of_digit hb
      · exact hParts c hc

/-- What a digit starts is a number of one kind or another. -/
theorem Number.exists_kind {b : UInt8} {t : Text} (hb : isDigitByte b = true)
    (hParts : ∀ c ∈ t, isNamePart c = true) : ∃ kind, Number kind (b :: t) := by
  by_cases hInteger : Digits (b :: t)
  · exact ⟨_, .integer hInteger⟩
  by_cases hDouble : Decimal (b :: t)
  · exact ⟨_, .double hDouble⟩
  exact ⟨_, .name hb hParts hInteger hDouble⟩

theorem Number.head_digit {kind : TokenKind} {t : Text} (h : Number kind t) :
    ∃ b more, t = b :: more ∧ isDigitByte b = true := by
  cases h with
  | integer h =>
      obtain ⟨b, more, rfl⟩ := List.exists_cons_of_ne_nil h.1
      exact ⟨b, more, rfl, h.2 b List.mem_cons_self⟩
  | double h =>
      obtain ⟨whole, fraction, rfl, hWhole, -⟩ := h
      obtain ⟨b, more, rfl⟩ := List.exists_cons_of_ne_nil hWhole.1
      exact ⟨b, more ++ 46 :: fraction, rfl, hWhole.2 b List.mem_cons_self⟩
  | name hb => exact ⟨_, _, rfl, hb⟩

end numbers

section words

variable {b : UInt8} {t rest : Text}

theorem wordKind_keyword (k : Keyword) : wordKind (Text.ofString k.spelling) = .keyword k := by
  cases k <;> decide

theorem wordKind_name (h : ∀ k : Keyword, t ≠ Text.ofString k.spelling) : wordKind t = .name := by
  have hNone : Keyword.ofText? t = none := by
    refine List.find?_eq_none.mpr fun k _ => ?_
    simpa using h k
  rw [wordKind, hNone]

theorem lexeme_nameStart (hStart : isNameStart b = true) (hParts : ∀ c ∈ t, isNamePart c = true)
    (hRest : Apart rest) :
    lexeme b (t ++ rest) = { kind := wordKind (b :: t), more := t.length } := by
  simp only [lexeme, if_pos hStart, takeWhile_append_of_stop hParts hRest]

theorem lexeme_digit (hb : isDigitByte b = true) :
    lexeme b rest =
      { kind := (numberLexeme (b :: rest)).1, more := (numberLexeme (b :: rest)).2 - 1 } := by
  simp only [lexeme, isNameStart_of_digit hb, hb, Bool.false_eq_true, if_false, if_true]

theorem lexeme_dash : lexeme 45 rest = dashLexeme rest := rfl

theorem lexeme_negative {kind : TokenKind} (h : Number kind t) (hRest : Apart rest) :
    lexeme 45 (t ++ rest) = { kind, more := t.length } := by
  obtain ⟨b, more, rfl, hb⟩ := h.head_digit
  have hLexeme := h.lexeme hRest
  rw [List.cons_append] at hLexeme ⊢
  rw [lexeme_dash]
  simp only [dashLexeme, if_pos hb, hLexeme]

/-- After a dash and no digit come further dashes and the name of an option. -/
theorem lexeme_dashes {dashes name : Text} (hDashes : ∀ c ∈ dashes, c = 45)
    (hName : ∀ c ∈ name, isNamePart c = true)
    (hDigit : dashes = [] → ∀ c ∈ name.head?, isDigitByte c = false)
    (hFirst : ∀ c ∈ name.head?, c ≠ 45) (hRest : Apart rest) :
    lexeme 45 (dashes ++ (name ++ rest)) =
      if name.length = 0 then
        { kind := .illegal, more := dashes.length, fault := some .missingOptionName }
      else { kind := .option, more := dashes.length + name.length } := by
  have hStop : ∀ c ∈ (name ++ rest).head?, (c == 45) = false := by
    intro c hc
    refine beq_eq_false_iff_ne.mpr ?_
    cases name with
    | nil =>
        rintro rfl
        exact nomatch hRest 45 hc
    | cons d name => exact hFirst c hc
  have hRun : run (· == 45) (dashes ++ (name ++ rest)) = dashes.length :=
    run_append (fun c hc => beq_iff_eq.mpr (hDashes c hc)) hStop
  have hNoDigit : ∀ c ∈ (dashes ++ (name ++ rest)).head?, isDigitByte c = false := by
    intro c hc
    cases dashes with
    | cons d dashes =>
        obtain rfl : d = c := Option.some.inj hc
        rw [hDashes d List.mem_cons_self]
        rfl
    | nil =>
        cases name with
        | cons d name => exact hDigit rfl c hc
        | nil => exact isDigitByte_of_not_part (hRest c hc)
  rw [lexeme_dash]
  simp only [dashLexeme]
  split
  · rename_i d more hText
    have hd := hNoDigit d (by rw [hText]; rfl)
    rw [hText, hd, if_neg Bool.false_ne_true, ← hText, hRun, List.drop_left, run_append hName hRest]
  · rename_i hText
    simp only [List.append_eq_nil_iff] at hText
    rw [hText.1, hText.2.1]
    rfl

theorem keyword_shape (k : Keyword) :
    ∃ b t, Text.ofString k.spelling = b :: t ∧ isNameStart b = true ∧
      ∀ c ∈ t, isNamePart c = true := by
  cases k <;> exact ⟨_, _, rfl, rfl, List.all_eq_true.mp rfl⟩

theorem Word.head_part {kind : TokenKind} {word : Text} (h : Word kind word) :
    ∃ b t, word = b :: t ∧ isNamePart b = true := by
  cases h with
  | keyword k =>
      obtain ⟨b, t, hText, hStart, -⟩ := keyword_shape k
      exact ⟨b, t, hText, isNamePart_of_start hStart⟩
  | name hStart => exact ⟨_, _, rfl, isNamePart_of_start hStart⟩
  | number h =>
      obtain ⟨b, t, rfl, hb⟩ := h.head_digit
      exact ⟨b, t, rfl, isNamePart_of_digit hb⟩
  | negative => exact ⟨45, _, rfl, rfl⟩
  | option => exact ⟨45, _, rfl, rfl⟩

/-- The scanner reads a word of a kind as one lexeme of the kind. -/
theorem Word.lexeme {kind : TokenKind} (h : Word kind (b :: t)) (hRest : Apart rest) :
    lexeme b (t ++ rest) = { kind, more := t.length } := by
  generalize hWord : b :: t = word at h
  cases h with
  | keyword k =>
      obtain ⟨c, more, hText, hStart, hParts⟩ := keyword_shape k
      obtain ⟨rfl, rfl⟩ := List.cons.inj (hWord.trans hText)
      rw [lexeme_nameStart hStart hParts hRest, hWord, wordKind_keyword]
  | name hStart hParts hKeyword =>
      obtain ⟨rfl, rfl⟩ := List.cons.inj hWord
      rw [lexeme_nameStart hStart hParts hRest, wordKind_name hKeyword]
  | number h =>
      subst hWord
      obtain ⟨c, more, hText, hc⟩ := h.head_digit
      obtain ⟨rfl, rfl⟩ := List.cons.inj hText
      rw [lexeme_digit hc, ← List.cons_append, h.lexeme hRest]
      rfl
  | negative h =>
      obtain ⟨rfl, rfl⟩ := List.cons.inj hWord
      exact lexeme_negative h hRest
  | @option dashes more c hDashes hParts hFirst hDigit =>
      obtain ⟨rfl, rfl⟩ := List.cons.inj hWord
      have hNoDigit : dashes = [] → ∀ d ∈ (c :: more).head?, isDigitByte d = false := by
        rintro hNil d ⟨⟩
        exact hDigit hNil
      have hNoDash : ∀ d ∈ (c :: more).head?, d ≠ 45 := by
        rintro d ⟨⟩
        exact hFirst
      rw [List.append_assoc, lexeme_dashes hDashes hParts hNoDigit hNoDash hRest, if_neg (by simp),
        List.length_append]

/-- Name bytes that start like a word are a word, unless they are dashes only. -/
theorem word_or_dashes (hb : isNameStart b = true ∨ isDigitByte b = true ∨ b = 45)
    (hParts : ∀ c ∈ t, isNamePart c = true) :
    (∃ kind, Word kind (b :: t)) ∨ b = 45 ∧ ∀ c ∈ t, c = 45 := by
  rcases hb with hStart | hDigit | rfl
  · by_cases hKeyword : ∃ k : Keyword, b :: t = Text.ofString k.spelling
    · obtain ⟨k, hk⟩ := hKeyword
      exact Or.inl ⟨.keyword k, hk ▸ .keyword k⟩
    · exact Or.inl ⟨.name, .name hStart hParts fun k hk => hKeyword ⟨k, hk⟩⟩
  · obtain ⟨kind, h⟩ := Number.exists_kind hDigit hParts
    exact Or.inl ⟨kind, .number h⟩
  · by_cases hDigit : ∃ c more, t = c :: more ∧ isDigitByte c = true
    · obtain ⟨c, more, rfl, hc⟩ := hDigit
      obtain ⟨kind, h⟩ := Number.exists_kind hc fun d hd => hParts d (List.mem_cons_of_mem c hd)
      exact Or.inl ⟨kind, .negative h⟩
    · obtain ⟨dashes, name, rfl, hDashes, hName⟩ := exists_run (· == 45) t
      have hDash : ∀ c ∈ dashes, c = 45 := fun c hc => beq_iff_eq.mp (hDashes c hc)
      cases name with
      | nil =>
          rw [List.append_nil]
          exact Or.inr ⟨rfl, hDash⟩
      | cons c name =>
          have hName' : ∀ d ∈ c :: name, isNamePart d = true := fun d hd =>
            hParts d (List.mem_append_right dashes hd)
          refine Or.inl ⟨.option, .option hDash hName' ?_ ?_⟩
          · exact beq_eq_false_iff_ne.mp (hName c rfl)
          · rintro rfl
            exact Bool.eq_false_iff.mpr fun hc => hDigit ⟨c, name, rfl, hc⟩

theorem lexeme_dashes_only (hDashes : ∀ c ∈ t, c = 45) (hRest : Apart rest) :
    lexeme 45 (t ++ rest) =
      { kind := .illegal, more := t.length, fault := some .missingOptionName } :=
  @lexeme_dashes rest t [] hDashes nofun nofun nofun hRest

end words

end Scan

end Runsheet
