import Runsheet.Proofs.Text.Runes
import Runsheet.Proofs.Token.Layout

/-! The scanner reads bytes, yet a source in UTF-8 has only symbols that stand for texts in UTF-8:
whatever divides or escapes is ASCII. -/
namespace Runsheet

open Text

namespace Scan

theorem ascii_of_isNamePart {b : UInt8} (h : isNamePart b = true) : b < 0x80 := by
  simp only [isNamePart, isNameStart, isLetterByte, isDigitByte, Bool.or_eq_true,
    Bool.and_eq_true, decide_eq_true_eq, beq_iff_eq, UInt8.le_iff_toNat_le, ← UInt8.toNat_inj,
    UInt8.reduceToNat] at h
  simp only [UInt8.lt_iff_toNat_lt, UInt8.reduceToNat]
  omega

theorem ascii_of_isBlankByte {b : UInt8} (h : isBlankByte b = true) : b < 0x80 := by
  simp only [isBlankByte, Bool.or_eq_true, Bool.and_eq_true, decide_eq_true_eq, beq_iff_eq,
    UInt8.le_iff_toNat_le, ← UInt8.toNat_inj, UInt8.reduceToNat] at h
  simp only [UInt8.lt_iff_toNat_lt, UInt8.reduceToNat]
  omega

theorem Number.isNamePart {kind : TokenKind} {t : Text} (h : Number kind t) :
    ∀ b ∈ t, Scan.isNamePart b = true := by
  cases h with
  | integer h => exact fun b hb => isNamePart_of_digit (h.2 b hb)
  | double h =>
      obtain ⟨whole, fraction, rfl, hWhole, hFraction⟩ := h
      intro b hb
      rcases List.mem_append.mp hb with hb | hb
      · exact isNamePart_of_digit (hWhole.2 b hb)
      · rcases List.mem_cons.mp hb with rfl | hb
        · rfl
        · exact isNamePart_of_digit (hFraction.2 b hb)
  | name hDigit hParts =>
      exact List.forall_mem_cons.mpr ⟨isNamePart_of_digit hDigit, hParts⟩

/-- A word is made of the bytes of names. -/
theorem Word.isNamePart {kind : TokenKind} {t : Text} (h : Word kind t) :
    ∀ b ∈ t, Scan.isNamePart b = true := by
  cases h with
  | keyword k => cases k <;> exact List.all_eq_true.mp rfl
  | name hStart hParts => exact List.forall_mem_cons.mpr ⟨isNamePart_of_start hStart, hParts⟩
  | number h => exact h.isNamePart
  | negative h => exact List.forall_mem_cons.mpr ⟨rfl, h.isNamePart⟩
  | option hDashes hParts =>
      refine List.forall_mem_cons.mpr ⟨rfl, fun b hb => ?_⟩
      rcases List.mem_append.mp hb with hb | hb
      · rw [hDashes b hb]
        rfl
      · exact hParts b hb

theorem Word.ascii {kind : TokenKind} {t : Text} (h : Word kind t) : ∀ b ∈ t, b < 0x80 :=
  fun b hb => ascii_of_isNamePart (h.isNamePart b hb)

theorem ascii_of_signByte {kind : TokenKind} {b : UInt8} (h : signByte kind = some b) :
    b < 0x80 := by
  cases kind <;> cases h <;> decide

/-- What follows a gap is in UTF-8 if all is. -/
theorem Gap.isUtf8_rest {gap rest : Text} (h : Gap false gap)
    (hAll : isUtf8 (gap ++ rest) = true) : rest.isUtf8 = true := by
  generalize hEnd : false = atEnd at h
  induction h with
  | nil => exact hAll
  | blank hb h ih => exact ih ((isUtf8_cons (ascii_of_isBlankByte hb)).mp hAll) hEnd
  | @comment atEnd words t hWords h ih =>
      simp only [List.cons_append, List.append_assoc] at hAll
      have hLine := (isUtf8_cons (by decide)).mp hAll
      exact ih ((isUtf8_append_cons (by decide)).mp hLine).2 hEnd
  | lastComment => cases hEnd

/-- What stands between quotes stands for a text in UTF-8. The bytes of a character may be divided by
the induction, so those of them that are read already are kept in front. -/
theorem Quoted.isUtf8_value {quote : UInt8} {t value : Text} (h : Quoted quote t value)
    (front : Text) (hAll : isUtf8 (front ++ t) = true) : isUtf8 (front ++ value) = true := by
  induction h generalizing front with
  | nil => exact hAll
  | @plain b t value _ _ _ _ ih =>
      have hMore := ih (front ++ [b]) (by simpa using hAll)
      simpa using hMore
  | @escape b t value _ ih =>
      obtain ⟨hFront, hRest⟩ := (isUtf8_append_cons (by decide)).mp hAll
      -- Only the letters for a line feed and a tab stand for another byte than themselves, and
      -- any other byte may be the first one of a character.
      by_cases hMark : b = 110 ∨ b = 116
      · have hAscii : b < 0x80 := by
          rcases hMark with rfl | rfl <;> decide
        have hEscaped : escaped b < 0x80 := by
          rcases hMark with rfl | rfl <;> decide
        have hValue := ih [] ((isUtf8_cons hAscii).mp hRest)
        exact (isUtf8_append_cons hEscaped).mpr ⟨hFront, hValue⟩
      · rw [not_or] at hMark
        have hSame : escaped b = b := by rw [escaped, if_neg hMark.1, if_neg hMark.2]
        rw [hSame]
        exact isUtf8_append hFront (ih [b] hRest)

/-- A symbol that is written in a text in UTF-8 stands for one, and leaves one. -/
theorem Written.isUtf8_value {kind : TokenKind} {value bytes rest : Text}
    (h : Written kind value bytes) (hAll : isUtf8 (bytes ++ rest) = true) :
    value.isUtf8 = true ∧ rest.isUtf8 = true := by
  cases h with
  | sign h => exact ⟨rfl, (isUtf8_cons (ascii_of_signByte h)).mp hAll⟩
  | word h => exact ⟨isUtf8_ascii h.ascii, (isUtf8_ascii_append h.ascii).mp hAll⟩
  | @string quote t value hQuote h =>
      have hAscii : quote < 0x80 := by
        rcases hQuote with rfl | rfl <;> decide
      simp only [List.cons_append, List.append_assoc, List.nil_append] at hAll
      have hInner := (isUtf8_cons hAscii).mp hAll
      obtain ⟨hText, hRest⟩ := (isUtf8_append_cons hAscii).mp hInner
      exact ⟨h.isUtf8_value [] hText, hRest⟩

end Scan

/-- All symbols of a source in UTF-8 stand for texts in UTF-8. -/
theorem Layout.isUtf8_values {symbols : List Symbol} {source : Text} (h : Layout symbols source)
    (hSource : source.isUtf8 = true) : ∀ s ∈ symbols, s.value.isUtf8 = true := by
  induction h with
  | done => nofun
  | next hGap _ hWritten _ _ ih =>
      obtain ⟨hValue, hRest⟩ := hWritten.isUtf8_value (hGap.isUtf8_rest hSource)
      exact List.forall_mem_cons.mpr ⟨hValue, ih hRest⟩

end Runsheet
