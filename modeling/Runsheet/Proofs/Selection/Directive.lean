import Runsheet.Proofs.Text.Blank
import Runsheet.Selection

/-! Directives as texts. A text is divided at its first colon whatever stands on either side of it, also
when the bytes next to the colon would make up a character without it, and white space is taken off the
two parts. So what is read is written without white space around its parts, and is read from that again. -/
namespace Runsheet

namespace Text

variable {b : UInt8} {s t core : Text}

/-- A text is cut at the first occurrence of the byte, so that the byte may come again in the second
part. -/
theorem cut_append_cons (h : b ∉ s) (t : Text) : cut b (s ++ b :: t) = some (s, t) := by
  induction s with
  | nil => simp [cut]
  | cons c s ih =>
      rw [List.mem_cons, not_or] at h
      rw [List.cons_append, cut, if_neg (Ne.symm h.1), ih h.2]
      rfl

theorem cut_of_not_mem (h : b ∉ t) : cut b t = none := by
  induction t with
  | nil => rfl
  | cons c t ih =>
      rw [List.mem_cons, not_or] at h
      rw [cut, if_neg (Ne.symm h.1), ih h.2]
      rfl

/-- A colon is no white space, so that trimming a part never changes where the text is divided. -/
theorem IsBlank.colon_not_mem (h : t.IsBlank) : 58 ∉ t := by
  intro hColon
  rw [← ofRunes_runes t] at hColon
  obtain ⟨r, hr, hByte⟩ := List.mem_flatMap.mp hColon
  have hBlank := h r hr
  cases r with
  | invalid b => cases hBlank
  | char c =>
      rw [eq_ofNat_of_mem_encode (by decide) hByte] at hBlank
      exact absurd hBlank (by decide)

/-- White space around a text has no colon. -/
theorem IsPadded.colon_mem_iff (h : t.IsPadded core) : 58 ∈ t ↔ 58 ∈ core := by
  obtain ⟨before, after, rfl, hBefore, hAfter⟩ := h
  simp [hBefore.colon_not_mem, hAfter.colon_not_mem]

end Text

namespace Directive

variable {d : Directive} {t choice label : Text}

section reading

/-- Without a colon a text is refused, and the complaint quotes it. -/
theorem parse_of_not_mem (h : 58 ∉ t) : parse t = .error (malformed t) := by
  rw [parse, Text.cut_of_not_mem h]

/-- With white space alone on one side of the first colon a text is refused as a whole, and the
complaint quotes it untrimmed. -/
theorem parse_of_isBlank (h : 58 ∉ choice) (hBlank : choice.IsBlank ∨ label.IsBlank) :
    parse (choice ++ 58 :: label) = .error (malformed (choice ++ 58 :: label)) := by
  have hNone : (choice.trim.isEmpty || label.trim.isEmpty) = true := by
    simpa [Text.trim_eq_nil_iff] using hBlank
  rw [parse, Text.cut_append_cons h]
  dsimp only
  rw [if_pos hNone]

/-- In every other case the two parts are trimmed, and further colons belong to the label. -/
theorem parse_of_not_isBlank (h : 58 ∉ choice) (hFilled : ¬ (choice.IsBlank ∨ label.IsBlank)) :
    parse (choice ++ 58 :: label) = .ok ⟨choice.trim, label.trim⟩ := by
  have hSome : ¬ (choice.trim.isEmpty || label.trim.isEmpty) = true := by
    simpa [Text.trim_eq_nil_iff] using hFilled
  rw [parse, Text.cut_append_cons h]
  dsimp only
  rw [if_neg hSome]

/-- What is read of a text are the trimmed parts on the two sides of its first colon. -/
theorem exists_of_parse (h : parse t = .ok d) : ∃ choice label : Text, t = choice ++ 58 :: label ∧
    58 ∉ choice ∧ ¬ (choice.IsBlank ∨ label.IsBlank) ∧ d = ⟨choice.trim, label.trim⟩ := by
  by_cases hColon : 58 ∈ t
  · obtain ⟨choice, label, rfl, hChoice⟩ := List.eq_append_cons_of_mem hColon
    by_cases hBlank : Text.IsBlank choice ∨ Text.IsBlank label
    · rw [parse_of_isBlank hChoice hBlank] at h
      cases h
    · rw [parse_of_not_isBlank hChoice hBlank] at h
      exact ⟨choice, label, rfl, hChoice, hBlank, (Except.ok.inj h).symm⟩
  · rw [parse_of_not_mem hColon] at h
    cases h

end reading

/-- Both parts are there, neither has white space at its ends, and the choice has no colon. The label
may have some. -/
structure IsPlain (d : Directive) : Prop where
  choice_filled : d.choice ≠ []
  label_filled : d.label ≠ []
  choice_trimmed : d.choice.IsTrimmed
  label_trimmed : d.label.IsTrimmed
  choice_undivided : 58 ∉ d.choice

theorem text_eq (d : Directive) : d.text = d.choice ++ 58 :: d.label := by
  have hColon : (":" : Text) = [58] := by decide
  rw [text, hColon, List.append_assoc, List.singleton_append]

/-- A text is read as a directive exactly if the directive is plain and the text is that directive with
white space around its parts. -/
theorem parse_eq_ok_iff : parse t = .ok d ↔ d.IsPlain ∧ ∃ choice label : Text,
    t = choice ++ 58 :: label ∧ choice.IsPadded d.choice ∧ label.IsPadded d.label := by
  constructor
  · intro h
    obtain ⟨choice, label, rfl, hUndivided, hFilled, rfl⟩ := exists_of_parse h
    obtain ⟨hChoiceFilled, hLabelFilled⟩ := not_or.mp hFilled
    have hChoice := choice.isPadded_trim
    have hLabel := label.isPadded_trim
    have hPlain : IsPlain ⟨choice.trim, label.trim⟩ :=
      { choice_filled := mt Text.trim_eq_nil_iff.mp hChoiceFilled
        label_filled := mt Text.trim_eq_nil_iff.mp hLabelFilled
        choice_trimmed := choice.isTrimmed_trim
        label_trimmed := label.isTrimmed_trim
        choice_undivided := mt hChoice.colon_mem_iff.mpr hUndivided }
    exact ⟨hPlain, choice, label, rfl, hChoice, hLabel⟩
  · rintro ⟨hPlain, choice, label, rfl, hChoice, hLabel⟩
    have hUndivided : 58 ∉ choice := mt hChoice.colon_mem_iff.mp hPlain.choice_undivided
    have hChoiceTrim := Text.trim_eq_iff.mpr ⟨hChoice, hPlain.choice_trimmed⟩
    have hLabelTrim := Text.trim_eq_iff.mpr ⟨hLabel, hPlain.label_trimmed⟩
    have hFilled : ¬ (choice.IsBlank ∨ label.IsBlank) := by
      rw [← Text.trim_eq_nil_iff, ← Text.trim_eq_nil_iff, hChoiceTrim, hLabelTrim]
      exact not_or.mpr ⟨hPlain.choice_filled, hPlain.label_filled⟩
    rw [parse_of_not_isBlank hUndivided hFilled, hChoiceTrim, hLabelTrim]

/-- A directive whose parts are trimmed and not empty, and whose choice has no colon, is read back
from its text. -/
theorem IsPlain.parse_eq (h : d.IsPlain) : parse d.text = .ok d :=
  parse_eq_ok_iff.mpr
    ⟨h, d.choice, d.label, d.text_eq, d.choice.isPadded_self, d.label.isPadded_self⟩

/-- What is read of any text is plain and is read from its own text again, and a plain directive is what
is read of its text. -/
theorem parse_text (t : Text) (d : Directive) :
    (parse t = .ok d → d.IsPlain ∧ parse d.text = .ok d) ∧ (d.IsPlain → parse d.text = .ok d) := by
  refine ⟨fun h => ?_, IsPlain.parse_eq⟩
  obtain ⟨hPlain, -⟩ := parse_eq_ok_iff.mp h
  exact ⟨hPlain, hPlain.parse_eq⟩

/-- A directive with half a wide space on either side of the colon, and a colon in its label. -/
def brokenSpace : Directive := ⟨("lay" : Text) ++ [0xe2], [0x80, 0x83] ++ ("a:b" : Text)⟩

/-- The same with white space around its parts, wide spaces among it. -/
def paddedBrokenSpace : Text :=
  ("\u2003lay" : Text) ++ [0xe2] ++ ("\u00a0:\t" : Text) ++ [0x80, 0x83] ++ ("a:b\u3000" : Text)

/-- Bytes of a wide space that has been cut short are no white space. They stay in the part, which
is read back all the same. -/
theorem parse_text_brokenSpace : parse paddedBrokenSpace = .ok brokenSpace ∧ brokenSpace.IsPlain ∧
    parse brokenSpace.text = .ok brokenSpace := by
  have hParse : parse paddedBrokenSpace = .ok brokenSpace := by rfl
  have hPlain : brokenSpace.IsPlain :=
    ⟨by decide, by decide, by decide, by decide, by decide⟩
  obtain ⟨hRead, hBack⟩ := parse_text paddedBrokenSpace brokenSpace
  exact ⟨hParse, (hRead hParse).1, hBack hPlain⟩

end Directive

end Runsheet
