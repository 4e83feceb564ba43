import Runsheet.Proofs.Text.Utf8

/-! The runes of a text that is put together from parts. A byte that continues no character starts a
rune wherever it stands, so that a text is divided before it; and the bytes of some runes of a text in a
row are read as these runes again, whatever was cut off around them. -/
namespace Runsheet

namespace Rune

variable {b c : UInt8} {s t : Text}

/-- ASCII bytes never continue a sequence. -/
theorem isTail_ascii (hc : c < 0x80) : isTail c = false := by
  refine Bool.eq_false_iff.mpr fun h => ?_
  have hRange := isTail_iff.mp h
  simp only [UInt8.lt_iff_toNat_lt, UInt8.reduceToNat] at hc
  omega

theorem isTail_of_isSecond (h : isSecond b c = true) : isTail c = true := by
  have hRange := isSecond_iff.mp h
  exact isTail_iff.mpr (by omega)

/-- A rune takes only bytes that are there. -/
theorem first_snd_le (b : UInt8) (s : Text) : (first b s).2 ≤ s.length := by
  rw [first.eq_def]
  repeat' split
  all_goals simp

/-- No rune goes on with a byte that continues no character. -/
theorem first_append_cons (hc : isTail c = false) (b : UInt8) (s t : Text) :
    first b (s ++ c :: t) = first b s := by
  have hSecond : isSecond b c = false :=
    Bool.eq_false_iff.mpr fun h => Bool.eq_false_iff.mp hc (isTail_of_isSecond h)
  -- No more than three bytes behind the first are looked at.
  rcases s with _ | ⟨c, _ | ⟨d, _ | ⟨e, s⟩⟩⟩
  · rcases t with _ | ⟨x, _ | ⟨y, t⟩⟩ <;> simp [first, hc, hSecond]
  · rcases t with _ | ⟨x, t⟩ <;> simp [first, hc]
  · simp [first, hc]
  · rfl

/-- A byte that continues a character stands alone when it comes first. -/
theorem first_of_isTail (hb : isTail b = true) (s : Text) : (first b s).1 = invalid b := by
  have hRange := isTail_iff.mp hb
  have hLead : ¬ b < 0x80 ∧ ¬ (0xc2 ≤ b ∧ b < 0xe0) ∧ ¬ (0xe0 ≤ b ∧ b < 0xf0) ∧
      ¬ (0xf0 ≤ b ∧ b < 0xf5) := by
    simp only [UInt8.lt_iff_toNat_lt, UInt8.le_iff_toNat_le, UInt8.reduceToNat]
    omega
  rw [first.eq_def, if_neg hLead.1, if_neg hLead.2.1, if_neg hLead.2.2.1, if_neg hLead.2.2.2]

/-- The first byte of a character continues none. -/
theorem exists_encode (x : Char) :
    ∃ b bs, String.utf8EncodeChar x = b :: bs ∧ isTail b = false := by
  obtain ⟨b, bs, hBytes, hFirst⟩ := first_encoded x []
  refine ⟨b, bs, hBytes, Bool.eq_false_iff.mpr fun hTail => ?_⟩
  have hAlone := first_of_isTail hTail (bs ++ [])
  rw [hFirst] at hAlone
  cases hAlone

/-- A byte that stands alone is none of ASCII. -/
theorem le_of_first_invalid (h : (first b s).1 = invalid c) : 0x80 ≤ c := by
  rw [first.eq_def] at h
  by_cases hb : b < 0x80
  · rw [if_pos hb] at h
    cases h
  · have hLarge : 0x80 ≤ b := UInt8.not_lt.mp hb
    rw [if_neg hb] at h
    repeat' split at h
    all_goals cases h
    all_goals exact hLarge

/-- A byte that starts no sequence stands for itself and owes no further byte. -/
theorem first_eq_of_invalid (h : (first b s).1 = invalid c) : first b s = (invalid b, 0) := by
  have hBytes := first_bytes b s
  rw [h, bytes, List.singleton_append] at hBytes
  obtain ⟨rfl, hRest⟩ := List.cons.inj hBytes
  have hMost := first_snd_le c s
  have hLength := congrArg List.length hRest
  rw [List.length_drop] at hLength
  exact Prod.ext h (by omega)

/-- A byte that stands alone does so also when less comes after it. -/
theorem first_eq_of_append (h : (first b (s ++ t)).1 = invalid c) : first b s = (invalid b, 0) := by
  rcases hFirst : (first b s).1 with x | d
  · have hBytes := first_bytes b s
    obtain ⟨e, bs, hEncode, hMore⟩ := first_encoded x (s.drop (first b s).2 ++ t)
    rw [hFirst, bytes, hEncode, List.cons_append] at hBytes
    obtain ⟨rfl, hText⟩ := List.cons.inj hBytes
    rw [← List.append_assoc, hText] at hMore
    rw [hMore] at h
    cases h
  · exact first_eq_of_invalid hFirst

theorem bytes_ne_nil (r : Rune) : r.bytes ≠ [] := by
  cases r with
  | char x =>
      obtain ⟨b, bs, hBytes, -⟩ := exists_encode x
      rw [bytes, hBytes]
      exact List.cons_ne_nil b bs
  | invalid b => exact List.cons_ne_nil b []

end Rune

namespace Text

variable {b : UInt8} {c : Char} {s t : Text} {before rs after more : List Rune}

theorem ofRunes_eq_nil_iff : ofRunes rs = [] ↔ rs = [] := by
  cases rs with
  | nil => simp [ofRunes]
  | cons r rs => simp [ofRunes, r.bytes_ne_nil]

/-- Texts are written rune by rune. -/
theorem ofRunes_append (rs more : List Rune) : ofRunes (rs ++ more) = ofRunes rs ++ ofRunes more :=
  List.flatMap_append

section append

theorem runes_cons (b : UInt8) (t : Text) :
    runes (b :: t) = (Rune.first b t).1 :: runesAfter (Rune.first b t).2 t := rfl

/-- Bytes that are owed to a sequence are passed over. -/
theorem runesAfter_eq_drop (owed : Nat) (t : Text) : runesAfter owed t = runes (t.drop owed) := by
  induction t generalizing owed with
  | nil => simp [runesAfter, runes]
  | cons b t ih =>
      cases owed with
      | succ owed => exact ih owed
      | zero => rfl

/-- An ASCII byte is a rune by itself, whatever comes after it. -/
theorem runes_cons_ascii (hb : b < 0x80) (t : Text) :
    runes (b :: t) = .char (Char.ofNat b.toNat) :: t.runes := by
  rw [runes_cons, Rune.first.eq_def, if_pos hb]
  rfl

/-- A byte that continues no sequence cuts the reading of runes: both sides can be read by
themselves. -/
theorem runesAfter_append_cons (hb : Rune.isTail b = false) {owed : Nat} (hOwed : owed ≤ s.length)
    (t : Text) : runesAfter owed (s ++ b :: t) = runesAfter owed s ++ runes (b :: t) := by
  induction s generalizing owed with
  | nil =>
      obtain rfl := Nat.le_zero.mp hOwed
      rfl
  | cons a s ih =>
      cases owed with
      | succ owed => exact ih (Nat.le_of_succ_le_succ hOwed)
      | zero =>
          rw [List.cons_append, runesAfter, Rune.first_append_cons hb, ih (Rune.first_snd_le a s)]
          rfl

/-- A byte that continues no character divides the runes of a text. -/
theorem runes_append_cons (hb : Rune.isTail b = false) (s t : Text) :
    runes (s ++ b :: t) = s.runes ++ runes (b :: t) :=
  runesAfter_append_cons hb (Nat.zero_le _) t

/-- An ASCII byte is a rune of its own. -/
theorem runes_append_ascii (hb : b < 0x80) (s t : Text) :
    runes (s ++ b :: t) = s.runes ++ .char (Char.ofNat b.toNat) :: t.runes := by
  rw [runes_append_cons (Rune.isTail_ascii hb), runes_cons_ascii hb]

/-- A text ends with a whole rune when its last byte is ASCII. -/
theorem runes_append_of_last (hb : b < 0x80) (s t : Text) :
    runes (s ++ [b] ++ t) = runes (s ++ [b]) ++ t.runes := by
  rw [List.append_assoc, List.singleton_append, runes_append_ascii hb, runes_append_ascii hb,
    List.append_assoc]
  rfl

/-- The bytes of a character are read as this character. -/
theorem runes_encode (c : Char) : runes (String.utf8EncodeChar c) = [.char c] := by
  have hOne := runes_encodings [c]
  rwa [List.flatMap_singleton] at hOne

/-- A text without stray bytes ends with a whole rune, whatever comes after it. -/
theorem runes_utf8_append (hs : s.isUtf8 = true) (t : Text) :
    runes (s ++ t) = s.runes ++ t.runes := by
  obtain ⟨cs, rfl⟩ := isUtf8_iff.mp hs
  rw [runes_encode_append, runes_encodings]

/-- A text without stray bytes begins with a whole rune, whatever comes before it. -/
theorem runes_append_utf8 (ht : t.isUtf8 = true) (s : Text) :
    runes (s ++ t) = s.runes ++ t.runes := by
  obtain ⟨cs, rfl⟩ := isUtf8_iff.mp ht
  cases cs with
  | nil =>
      rw [List.flatMap_nil, List.append_nil]
      exact (List.append_nil _).symm
  | cons c cs =>
      obtain ⟨b, bs, hBytes, hTail⟩ := Rune.exists_encode c
      rw [List.flatMap_cons, hBytes, List.cons_append, runes_append_cons hTail]

/-- A text starts with a character exactly if its first rune is that character. -/
theorem encode_prefix_iff : String.utf8EncodeChar c <+: t ↔ .char c ∈ t.runes.head? := by
  constructor
  · rintro ⟨rest, rfl⟩
    rw [runes_utf8_append (isUtf8_encode c), runes_encode]
    rfl
  · intro h
    obtain ⟨rs, hRunes⟩ := List.head?_eq_some_iff.mp h
    rw [← ofRunes_runes t, hRunes]
    exact List.prefix_append _ (ofRunes rs)

/-- A text ends with a character exactly if its last rune is that character. -/
theorem encode_suffix_iff : String.utf8EncodeChar c <:+ t ↔ .char c ∈ t.runes.getLast? := by
  constructor
  · rintro ⟨lead, rfl⟩
    rw [runes_append_utf8 (isUtf8_encode c), runes_encode]
    exact List.getLast?_concat
  · intro h
    obtain ⟨rs, hRunes⟩ := List.getLast?_eq_some_iff.mp h
    rw [← ofRunes_runes t, hRunes, ofRunes_append, ofRunes, ofRunes, List.flatMap_singleton]
    exact List.suffix_append _ _

end append

section utf8

/-- An ASCII byte is no stray byte and divides a text. -/
theorem isUtf8_append_cons (hb : b < 0x80) :
    isUtf8 (s ++ b :: t) = true ↔ s.isUtf8 = true ∧ t.isUtf8 = true := by
  rw [isUtf8, runes_append_ascii hb, List.all_append, List.all_cons, Bool.true_and, Bool.and_eq_true,
    isUtf8, isUtf8]

/-- An ASCII byte in front makes no difference to whether a text is in UTF-8. -/
theorem isUtf8_cons (hb : b < 0x80) : isUtf8 (b :: t) = true ↔ t.isUtf8 = true := by
  have h := isUtf8_append_cons (s := []) (t := t) hb
  rwa [List.nil_append, and_iff_right isUtf8_nil] at h

/-- ASCII bytes in front of a text change nothing. -/
theorem isUtf8_ascii_append (hs : ∀ b ∈ s, b < 0x80) :
    isUtf8 (s ++ t) = true ↔ t.isUtf8 = true := by
  induction s with
  | nil => rfl
  | cons b s ih =>
      rw [List.cons_append, isUtf8_cons (hs b List.mem_cons_self),
        ih fun c hc => hs c (List.mem_cons_of_mem _ hc)]

theorem isUtf8_ascii (hs : ∀ b ∈ s, b < 0x80) : s.isUtf8 = true := by
  have h := (isUtf8_ascii_append (t := []) hs).mpr isUtf8_nil
  rwa [List.append_nil] at h

end utf8

/-- Stray bytes are never ASCII. -/
theorem le_of_invalid_mem {owed : Nat} (h : .invalid b ∈ runesAfter owed s) : 0x80 ≤ b := by
  induction s generalizing owed with
  | nil =>
      rw [runesAfter] at h
      cases h
  | cons c s ih =>
      cases owed with
      | succ owed => exact ih h
      | zero =>
          rw [runesAfter] at h
          rcases List.mem_cons.mp h with h | h
          · exact Rune.le_of_first_invalid h.symm
          · exact ih h

section parts

/-- The first runes of a text are the runes of their bytes. -/
theorem runes_ofRunes (h : t.runes = rs ++ more) : (ofRunes rs).runes = rs := by
  induction rs generalizing t with
  | nil => rfl
  | cons r rs ih =>
      cases t with
      | nil => cases h
      | cons b t =>
          rw [runes_cons, runesAfter_eq_drop, List.cons_append] at h
          obtain ⟨hFirst, hRest⟩ := List.cons.inj h
          have hMore := ih hRest
          have hOwn : ofRunes (r :: rs) = r.bytes ++ ofRunes rs := List.flatMap_cons
          cases r with
          | char x =>
              rw [hOwn, Rune.bytes, runes_utf8_append (isUtf8_encode x), runes_encode, hMore]
              rfl
          | invalid c =>
              have hAlone := Rune.first_eq_of_invalid hFirst
              obtain rfl : b = c := Rune.invalid.inj (by rw [hAlone] at hFirst; exact hFirst)
              have hText : t = ofRunes rs ++ ofRunes more := by
                rw [hAlone, List.drop_zero] at hRest
                rw [← ofRunes_runes t, hRest, ofRunes_append]
              rw [hText] at hFirst
              rw [hOwn, Rune.bytes, List.singleton_append, runes_cons, Rune.first_eq_of_append hFirst]
              exact congrArg _ hMore

/-- The last runes of a text are the runes of their bytes. -/
theorem runes_ofRunes_last (h : t.runes = before ++ rs) : (ofRunes rs).runes = rs := by
  induction before generalizing t with
  | nil =>
      rw [List.nil_append] at h
      rw [← h, ofRunes_runes]
  | cons r before ih =>
      cases t with
      | nil => cases h
      | cons b t =>
          rw [runes_cons, runesAfter_eq_drop, List.cons_append] at h
          exact ih (List.cons.inj h).2

/-- Runes in a row of a text are the runes of their bytes. -/
theorem runes_ofRunes_inside (h : t.runes = before ++ rs ++ after) : (ofRunes rs).runes = rs := by
  rw [List.append_assoc] at h
  exact runes_ofRunes (runes_ofRunes_last h)

end parts

end Text

end Runsheet
