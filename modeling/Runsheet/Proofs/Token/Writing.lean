import Runsheet.Proofs.Token.Scan
import Runsheet.Proofs.Token.Word

/-! How a source is written: which bytes write a symbol and which may stand between two of them, and
what the scanner makes of either. -/
namespace Runsheet

namespace Scan

/-- Blanks and comments. At the end of a source, the last comment needs no newline. -/
inductive Gap : (atEnd : Bool) → Text → Prop
  | nil {atEnd : Bool} : Gap atEnd []
  | blank {atEnd : Bool} {b : UInt8} {t : Text} (hb : isBlankByte b = true) (h : Gap atEnd t) :
      Gap atEnd (b :: t)
  | comment {atEnd : Bool} {words t : Text} (hWords : ∀ b ∈ words, b ≠ 10) (h : Gap atEnd t) :
      Gap atEnd (35 :: (words ++ 10 :: t))
  | lastComment {words : Text} (hWords : ∀ b ∈ words, b ≠ 10) : Gap true (35 :: words)

def escaped (b : UInt8) : UInt8 := if b = 110 then 10 else if b = 116 then 9 else b

/-- The bytes between two quotes, and what they stand for. -/
inductive Quoted (quote : UInt8) : Text → Text → Prop
  | nil : Quoted quote [] []
  | plain {b : UInt8} {t value : Text} (hQuote : b ≠ quote) (hLine : b ≠ 10) (hEscape : b ≠ 92)
      (h : Quoted quote t value) : Quoted quote (b :: t) (b :: value)
  | escape (b : UInt8) {t value : Text} (h : Quoted quote t value) :
      Quoted quote (92 :: b :: t) (escaped b :: value)

def signByte : TokenKind → Option UInt8
  | .colon => some 58
  | .semicolon => some 59
  | .comma => some 44
  | .bar => some 124
  | .equals => some 61
  | _ => none

/-- Which bytes write a symbol of a kind that stands for a text. A sign stands for none. -/
inductive Written : TokenKind → Text → Text → Prop
  | sign {kind : TokenKind} {b : UInt8} (h : signByte kind = some b) : Written kind [] [b]
  | word {kind : TokenKind} {t : Text} (h : Word kind t) : Written kind t t
  | string {quote : UInt8} {t value : Text} (hQuote : quote = 34 ∨ quote = 39)
      (h : Quoted quote t value) : Written .string value (quote :: (t ++ [quote]))

section gaps

variable {words t : Text}

theorem gap_comment (hWords : ∀ b ∈ words, b ≠ 10) :
    gap true (words ++ 10 :: t) = words.length + 1 + gap false t := by
  induction words with
  | nil => simp [gap]; omega
  | cons b words ih =>
      have hb : b ≠ 10 := hWords b List.mem_cons_self
      have hMore := ih fun c hc => hWords c (List.mem_cons_of_mem b hc)
      simp only [List.cons_append, gap, if_neg hb, hMore, List.length_cons]
      omega

theorem gap_lastComment (hWords : ∀ b ∈ words, b ≠ 10) : gap true words = words.length := by
  induction words with
  | nil => rfl
  | cons b words ih =>
      have hb : b ≠ 10 := hWords b List.mem_cons_self
      have hMore := ih fun c hc => hWords c (List.mem_cons_of_mem b hc)
      simp only [gap, if_neg hb, hMore, List.length_cons]

theorem gap_mark : gap false (35 :: t) = gap true t + 1 := rfl

/-- The scanner skips a gap and whatever more may be skipped. -/
theorem Gap.skipped {atEnd : Bool} {g rest : Text} (h : Gap atEnd g)
    (hEnd : atEnd = true → rest = []) : gap false (g ++ rest) = g.length + gap false rest := by
  induction h with
  | nil => simp
  | blank hb h ih =>
      simp only [List.cons_append, gap, if_pos hb, ih hEnd, List.length_cons]
      omega
  | comment hWords h ih =>
      rw [List.cons_append, gap_mark, List.append_assoc, List.cons_append, gap_comment hWords, ih hEnd]
      simp
      omega
  | lastComment hWords =>
      obtain rfl := hEnd rfl
      rw [List.append_nil, gap_mark, gap_lastComment hWords]
      simp [gap]

/-- What the scanner skips is a gap: up to a byte that starts a lexeme, or to the end. -/
theorem exists_gap (t : Text) :
    ∃ g rest, t = g ++ rest ∧ gap false t = g.length ∧
      (rest = [] ∧ Gap true g ∨
        Gap false g ∧ ∃ b more, rest = b :: more ∧ isBlankByte b = false ∧ b ≠ 35) := by
  -- A comment is skipped at once up to the end of its line, so the induction is on the length.
  induction hLength : t.length using Nat.strongRecOn generalizing t with
  | ind length ih =>
      cases t with
      | nil => exact ⟨[], [], rfl, rfl, Or.inl ⟨rfl, .nil⟩⟩
      | cons b t =>
          by_cases hb : isBlankByte b = true
          · obtain ⟨g, rest, rfl, hGap, h⟩ := ih t.length (by simp [← hLength]) t rfl
            refine ⟨b :: g, rest, rfl, by simp only [gap, if_pos hb, hGap, List.length_cons], ?_⟩
            exact h.imp (fun h => ⟨h.1, .blank hb h.2⟩) (fun h => ⟨.blank hb h.1, h.2⟩)
          by_cases hMark : b = 35
          · subst hMark
            obtain ⟨words, more, rfl, hWords, hMore⟩ := exists_run (· != 10) t
            have hWords' : ∀ c ∈ words, c ≠ 10 := fun c hc => bne_iff_ne.mp (hWords c hc)
            cases more with
            | nil =>
                rw [List.append_nil]
                exact ⟨35 :: words, [], (List.append_nil _).symm,
                  by rw [gap_mark, gap_lastComment hWords', List.length_cons],
                  Or.inl ⟨rfl, .lastComment hWords'⟩⟩
            | cons c more =>
                obtain rfl : c = 10 := by simpa using hMore c rfl
                obtain ⟨g, rest, rfl, hGap, h⟩ :=
                  ih more.length (by simp [← hLength]; omega) more rfl
                refine ⟨35 :: (words ++ 10 :: g), rest, by simp, ?_, ?_⟩
                · rw [gap_mark, gap_comment hWords', hGap]
                  simp
                  omega
                · exact h.imp (fun h => ⟨h.1, .comment hWords' h.2⟩)
                    (fun h => ⟨.comment hWords' h.1, h.2⟩)
          · exact ⟨[], b :: t, rfl, by simp [gap, hb, hMark],
              Or.inr ⟨.nil, b, t, rfl, Bool.eq_false_iff.mpr hb, hMark⟩⟩

end gaps

section strings

variable {quote : UInt8} {t value rest : Text}

/-- The scanner reads up to the closing quote. -/
theorem Quoted.body (h : Quoted quote t value) (hQuote : quote ≠ 92) :
    stringBody quote (t ++ quote :: rest) = (t.length + 1, true) := by
  induction h with
  | nil => cases rest <;> simp [stringBody]
  | @plain b t value hb hLine hEscape h ih =>
      cases t with
      | nil => simp_all [stringBody]
      | cons c t => simp_all [stringBody]
  | escape b h ih => simp [stringBody, hQuote.symm, ih]

theorem Quoted.unescaped (h : Quoted quote t value) : Token.unescape t = value := by
  induction h with
  | nil => rfl
  | @plain b t value hb hLine hEscape h ih =>
      subst ih
      cases t with
      | nil => rfl
      | cons c t => simp only [Token.unescape, if_neg hEscape]
  | escape b h ih => simp only [Token.unescape, if_true, ih, escaped]

/-- What is closed by a quote is quoted. -/
theorem exists_quoted {n : Nat} (h : stringBody quote rest = (n, true)) :
    ∃ t value more, rest = t ++ quote :: more ∧ n = t.length + 1 ∧ Quoted quote t value := by
  fun_induction stringBody quote rest generalizing n with
  | case1 => exact nomatch h
  | case2 =>
      obtain ⟨rfl, -⟩ := Prod.mk.inj h
      exact ⟨[], [], [], rfl, rfl, .nil⟩
  | case3 => exact nomatch h
  | case4 => exact nomatch h
  | case5 c rest =>
      obtain ⟨rfl, -⟩ := Prod.mk.inj h
      exact ⟨[], [], c :: rest, rfl, rfl, .nil⟩
  | case6 => exact nomatch h
  | case7 c rest n closed hBody hb hLine ih =>
      obtain ⟨rfl, rfl⟩ := Prod.mk.inj h
      obtain ⟨t, value, more, rfl, rfl, hQuoted⟩ := ih hBody
      exact ⟨92 :: c :: t, escaped c :: value, more, rfl, rfl, .escape c hQuoted⟩
  | case8 b c rest hb hLine hEscape n closed hBody ih =>
      obtain ⟨rfl, rfl⟩ := Prod.mk.inj h
      obtain ⟨t, value, more, hRest, rfl, hQuoted⟩ := ih hBody
      exact ⟨b :: t, b :: value, more, by rw [hRest, List.cons_append], rfl,
        .plain hb hLine hEscape hQuoted⟩

end strings

section symbols

variable {kind : TokenKind} {value bytes t rest : Text} {b : UInt8}

/-- A sign is one byte, which starts nothing else. -/
theorem signByte_spec (h : signByte kind = some b) :
    isPunctuation kind = true ∧ isBlankByte b = false ∧ b ≠ 35 ∧
      ∀ rest, lexeme b rest = { kind, more := 0 } := by
  cases kind with
  | colon | semicolon | comma | bar | equals =>
      obtain rfl := Option.some.inj h
      exact ⟨rfl, rfl, by decide, fun _ => rfl⟩
  | _ => cases h

theorem lexeme_quote (hQuote : b = 34 ∨ b = 39) : lexeme b rest = stringLexeme b rest := by
  rcases hQuote with rfl | rfl <;> rfl

theorem Number.kind_cases (h : Number kind t) : kind = .integer ∨ kind = .double ∨ kind = .name := by
  cases h <;> simp

/-- Words are neither signs nor strings. -/
theorem Word.kind_ne (h : Word kind t) :
    kind ≠ .eof ∧ kind ≠ .string ∧ isPunctuation kind = false := by
  cases h with
  | keyword k => exact ⟨nofun, nofun, rfl⟩
  | name => exact ⟨nofun, nofun, rfl⟩
  | number h => rcases h.kind_cases with rfl | rfl | rfl <;> exact ⟨nofun, nofun, rfl⟩
  | negative h => rcases h.kind_cases with rfl | rfl | rfl <;> exact ⟨nofun, nofun, rfl⟩
  | option => exact ⟨nofun, nofun, rfl⟩

theorem not_word_of_sign (h : signByte kind = some b) : ¬ Word kind t := by
  intro hWord
  have hSign := hWord.kind_ne.2.2
  rw [(signByte_spec h).1] at hSign
  cases hSign

/-- What writes a symbol starts with a byte that no gap goes on with. -/
theorem Written.head_solid (h : Written kind value bytes) :
    ∃ b t, bytes = b :: t ∧ isBlankByte b = false ∧ b ≠ 35 := by
  cases h with
  | sign h =>
      obtain ⟨-, hBlank, hMark, -⟩ := signByte_spec h
      exact ⟨_, [], rfl, hBlank, hMark⟩
  | word h =>
      obtain ⟨b, t, rfl, hb⟩ := h.head_part
      refine ⟨b, t, rfl, ?_, ?_⟩
      · grind [isNamePart, isNameStart, isLetterByte, isDigitByte, isBlankByte]
      · rintro rfl
        exact absurd hb (by decide)
  | string hQuote h =>
      refine ⟨_, _, rfl, ?_⟩
      rcases hQuote with rfl | rfl <;> exact ⟨rfl, by decide⟩

theorem Written.kind_ne_eof (h : Written kind value bytes) : kind ≠ .eof := by
  cases h with
  | sign h =>
      rintro rfl
      cases h
  | word h => exact h.kind_ne.1
  | string => nofun

/-- The scanner reads what writes a symbol as one lexeme. -/
theorem Written.lexeme (h : Written kind value (b :: t)) (hApart : Word kind (b :: t) → Apart rest) :
    lexeme b (t ++ rest) = { kind, more := t.length } := by
  generalize hBytes : b :: t = bytes at h
  cases h with
  | sign h =>
      obtain ⟨rfl, rfl⟩ := List.cons.inj hBytes
      exact (signByte_spec h).2.2.2 rest
  | word h =>
      subst hBytes
      exact h.lexeme (hApart h)
  | string hQuote h =>
      obtain ⟨rfl, rfl⟩ := List.cons.inj hBytes
      have hEscape : b ≠ 92 := by rcases hQuote with rfl | rfl <;> nofun
      rw [lexeme_quote hQuote, stringLexeme, List.append_assoc, List.cons_append, List.nil_append,
        h.body hEscape, List.length_append]
      rfl

/-- The token made of the bytes stands for the text. -/
theorem Written.value_token (h : Written kind value bytes) (position : Position) (spaced : Bool)
    (fault : Option ScanFault) :
    (Token.mk kind (if isPunctuation kind then none else some bytes) position spaced fault).value =
      value := by
  cases h with
  | sign h => simp [Token.value, Token.raw, (signByte_spec h).1]
  | word h =>
      obtain ⟨-, hString, hSign⟩ := h.kind_ne
      simp [Token.value, Token.raw, hString, hSign]
  | string hQuote h =>
      simp [Token.value, Token.raw, isPunctuation, h.unescaped]

end symbols

end Scan

namespace Cursor

open Scan

variable {c : Cursor}

/-- When only a gap is left, the end token comes after it. -/
theorem next_eq_of_end (hGap : Gap true c.rest) :
    c.next = (⟨.eof, none, c.position.after c.rest, decide (0 < c.rest.length), none⟩,
      ⟨[], c.position.after c.rest⟩) := by
  have hSkip : gap false c.rest = c.rest.length := by
    simpa [gap] using hGap.skipped fun _ => rfl
  simp only [next, skip, hSkip, List.drop_length, List.take_length]

/-- After a gap, the next token is made of the next lexeme, and the cursor moves over both. -/
theorem next_eq_of_gap {g rest : Text} {b : UInt8} (hRest : c.rest = g ++ b :: rest)
    (hGap : Gap false g) (hBlank : isBlankByte b = false) (hMark : b ≠ 35) :
    c.next =
      (⟨(lexeme b rest).kind,
        if isPunctuation (lexeme b rest).kind then none
        else some (b :: rest.take (lexeme b rest).more),
        c.position.after g, decide (0 < g.length), (lexeme b rest).fault⟩,
      ⟨rest.drop (lexeme b rest).more,
        (c.position.after g).after (b :: rest.take (lexeme b rest).more)⟩) := by
  have hSkip : gap false c.rest = g.length := by
    rw [hRest, hGap.skipped nofun]
    simp [gap, hBlank, hMark]
  have hStart : c.rest.drop g.length = b :: rest := by rw [hRest, List.drop_left]
  have hTaken : c.rest.take g.length = g := by rw [hRest, List.take_left]
  simp only [next, skip, hSkip, hStart, hTaken, List.drop_succ_cons, List.take_succ_cons]

end Cursor

end Runsheet
