import Mathlib.Data.List.DropRight
import Runsheet.Proofs.Text.Runes
import Runsheet.Text.Blank

/-! White space at the ends of a text. Trimming takes white space off both ends and nothing else, and
goes on until neither end has any: what is left is told from these two facts alone, so that it does not
matter from which end a text with stray bytes is read. Nothing is left exactly of a text that is white
space throughout. -/
namespace Runsheet

namespace Text

variable {t core : Text}

def IsBlank (t : Text) : Prop := ∀ r ∈ t.runes, r.isBlank = true

instance (t : Text) : Decidable t.IsBlank := inferInstanceAs (Decidable (∀ r ∈ t.runes, _))

theorem isBlank_nil : IsBlank [] := nofun

/-- A stray byte is no white space. -/
theorem IsBlank.isUtf8 (h : t.IsBlank) : t.isUtf8 = true := by
  refine List.all_eq_true.mpr fun r hr => ?_
  cases r with
  | char c => rfl
  | invalid b => cases h _ hr

/-- No character of white space stands at the start or at the end of the text. -/
structure IsTrimmed (t : Text) : Prop where
  start : ∀ c, (Rune.char c).isBlank = true → ¬ String.utf8EncodeChar c <+: t
  stop : ∀ c, (Rune.char c).isBlank = true → ¬ String.utf8EncodeChar c <:+ t

/-- The text is another one with white space before and after it. -/
def IsPadded (t core : Text) : Prop :=
  ∃ before after : Text, t = before ++ core ++ after ∧ before.IsBlank ∧ after.IsBlank

theorem isPadded_self (t : Text) : t.IsPadded t :=
  ⟨[], [], (List.append_nil t).symm, isBlank_nil, isBlank_nil⟩

section trim

theorem trim_eq_ofRunes (t : Text) :
    t.trim = ofRunes ((t.runes.dropWhile Rune.isBlank).rdropWhile Rune.isBlank) := rfl

/-- Trimming leaves nothing exactly of white space. -/
theorem trim_eq_nil_iff : t.trim = [] ↔ t.IsBlank := by
  rw [trim_eq_ofRunes, ofRunes_eq_nil_iff, List.rdropWhile_eq_nil_iff]
  constructor
  · intro h
    -- If a rune were left at the front, it would not be white space.
    have hNone : t.runes.dropWhile Rune.isBlank = [] := by
      by_contra hSome
      have hHead := List.head_dropWhile_not Rune.isBlank hSome
      rw [h _ (List.head_mem hSome)] at hHead
      cases hHead
    exact List.dropWhile_eq_nil_iff.mp hNone
  · intro h r hr
    exact h r ((List.dropWhile_sublist _).subset hr)

/-- A text is trimmed when neither its first nor its last rune is white space. -/
theorem isTrimmed_iff : t.IsTrimmed ↔
    (∀ r ∈ t.runes.head?, r.isBlank = false) ∧ ∀ r ∈ t.runes.getLast?, r.isBlank = false := by
  constructor
  · rintro ⟨hStart, hStop⟩
    refine ⟨fun r hr => ?_, fun r hr => ?_⟩
    · cases r with
      | char c => exact Bool.eq_false_iff.mpr fun hc => hStart c hc (encode_prefix_iff.mpr hr)
      | invalid b => rfl
    · cases r with
      | char c => exact Bool.eq_false_iff.mpr fun hc => hStop c hc (encode_suffix_iff.mpr hr)
      | invalid b => rfl
  · rintro ⟨hHead, hLast⟩
    refine ⟨fun c hc h => ?_, fun c hc h => ?_⟩
    · exact absurd hc (Bool.eq_false_iff.mp (hHead _ (encode_prefix_iff.mp h)))
    · exact absurd hc (Bool.eq_false_iff.mp (hLast _ (encode_suffix_iff.mp h)))

instance (t : Text) : Decidable t.IsTrimmed := decidable_of_iff _ isTrimmed_iff.symm

/-- The runes between the white space at the start and the white space at the end. -/
theorem runes_eq_trim (t : Text) : ∃ lead rest : List Rune,
    t.runes = lead ++ (t.runes.dropWhile Rune.isBlank).rdropWhile Rune.isBlank ++ rest ∧
      (∀ r ∈ lead, r.isBlank = true) ∧ ∀ r ∈ rest, r.isBlank = true := by
  refine ⟨t.runes.takeWhile Rune.isBlank, (t.runes.dropWhile Rune.isBlank).rtakeWhile Rune.isBlank,
    ?_, fun r => List.mem_takeWhile_imp, fun r => List.mem_rtakeWhile_imp⟩
  rw [List.append_assoc, List.rdropWhile_append_rtakeWhile, List.takeWhile_append_dropWhile]

/-- Trimming drops runes at the two ends and keeps those between as they were read. -/
theorem runes_trim (t : Text) :
    t.trim.runes = (t.runes.dropWhile Rune.isBlank).rdropWhile Rune.isBlank := by
  obtain ⟨lead, rest, hRunes, -, -⟩ := runes_eq_trim t
  exact runes_ofRunes_inside hRunes

/-- Only white space is taken off. -/
theorem isPadded_trim (t : Text) : t.IsPadded t.trim := by
  obtain ⟨lead, rest, hRunes, hLead, hRest⟩ := runes_eq_trim t
  refine ⟨ofRunes lead, ofRunes rest, ?_, ?_, ?_⟩
  · rw [← runes_trim] at hRunes
    calc t = ofRunes t.runes := (ofRunes_runes t).symm
      _ = ofRunes lead ++ t.trim ++ ofRunes rest := by
        rw [hRunes, ofRunes_append, ofRunes_append, ofRunes_runes]
  · rw [List.append_assoc] at hRunes
    rwa [IsBlank, runes_ofRunes hRunes]
  · rwa [IsBlank, runes_ofRunes_last hRunes]

/-- No white space is left at the ends. -/
theorem isTrimmed_trim (t : Text) : t.trim.IsTrimmed := by
  rw [isTrimmed_iff, runes_trim]
  refine ⟨fun r hr => ?_, fun r hr => ?_⟩
  · obtain ⟨rest, hRest⟩ := List.rdropWhile_prefix Rune.isBlank (t.runes.dropWhile Rune.isBlank)
    obtain ⟨more, hMore⟩ := List.head?_eq_some_iff.mp hr
    have hHead := List.head?_dropWhile_not Rune.isBlank t.runes
    rw [← hRest, hMore] at hHead
    exact hHead
  · obtain ⟨hSome, rfl⟩ := List.mem_getLast?_eq_getLast hr
    exact Bool.eq_false_iff.mpr (List.rdropWhile_last_not _ _ hSome)

/-- White space around a text without any at its ends is what trimming takes off. -/
theorem trim_of_isPadded (h : t.IsPadded core) (hCore : core.IsTrimmed) : t.trim = core := by
  obtain ⟨before, after, rfl, hBefore, hAfter⟩ := h
  obtain ⟨hHead, hLast⟩ := isTrimmed_iff.mp hCore
  have hRunes : (before ++ core ++ after).runes = before.runes ++ (core.runes ++ after.runes) := by
    rw [runes_append_utf8 hAfter.isUtf8, runes_utf8_append hBefore.isUtf8, List.append_assoc]
  -- With nothing between them the two runs of white space are one, and all of it goes.
  cases hOwn : core.runes with
  | nil =>
      have hNone : core = [] := by
        rw [← ofRunes_runes core, hOwn]
        rfl
      rw [hNone] at hRunes ⊢
      refine trim_eq_nil_iff.mpr fun r hr => ?_
      rw [hRunes] at hr
      exact (List.mem_append.mp hr).elim (hBefore r) (hAfter r)
  | cons r rs =>
      have hStart : (before ++ core ++ after).runes.dropWhile Rune.isBlank =
          core.runes ++ after.runes := by
        rw [hRunes, List.dropWhile_append_of_pos hBefore, hOwn, List.cons_append,
          List.dropWhile_cons_of_neg (Bool.eq_false_iff.mp (hHead r (by rw [hOwn]; rfl)))]
      have hStop : (core.runes ++ after.runes).rdropWhile Rune.isBlank = core.runes := by
        rw [List.rdropWhile, List.reverse_append,
          List.dropWhile_append_of_pos fun r hr => hAfter r (List.mem_reverse.mp hr),
          ← List.rdropWhile, List.rdropWhile_eq_self_iff]
        exact fun hSome => Bool.eq_false_iff.mp (hLast _ (List.getLast?_eq_some_getLast hSome))
      rw [trim_eq_ofRunes, hStart, hStop, ofRunes_runes]

/-- What trimming leaves of a text, said without it. -/
theorem trim_eq_iff : t.trim = core ↔ t.IsPadded core ∧ core.IsTrimmed := by
  constructor
  · rintro rfl
    exact ⟨isPadded_trim t, isTrimmed_trim t⟩
  · rintro ⟨hPadded, hCore⟩
    exact trim_of_isPadded hPadded hCore

end trim

end Text

end Runsheet
