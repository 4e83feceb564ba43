import Runsheet.Text.Utf8

/-! Reading a text as UTF-8 loses nothing: the runes give the bytes back, and the texts without a
stray byte are exactly the encodings of strings. -/
namespace Runsheet

section encoding

variable {c : Char} {b₀ b₁ b₂ b₃ : UInt8}

/-- Code points and characters correspond, as long as the number is that of a character. -/
theorem toNat_ofNat_of_isValidChar {n : Nat} (h : n.isValidChar) : (Char.ofNat n).toNat = n := by
  rw [Char.ofNat, dif_pos h]
  rfl

theorem isValidChar_toNat (c : Char) :
    c.toNat < 0xd800 ∨ (0xdfff < c.toNat ∧ c.toNat < 0x110000) := c.valid

theorem ofNat_of_toNat_eq {n : Nat} {b : UInt8} (h : b.toNat = n) : UInt8.ofNat n = b := by
  rw [← h, UInt8.ofNat_toNat]

/-- A character of one byte. -/
theorem encode_one (h : c.toNat < 0x80) (h₀ : b₀.toNat = c.toNat) :
    String.utf8EncodeChar c = [b₀] := by
  have hValue : c.val.toNat = c.toNat := rfl
  rw [String.utf8EncodeChar.eq_1, if_pos (by omega), hValue, ofNat_of_toNat_eq h₀]

/-- A character of two bytes. -/
theorem encode_two (hLow : 0x80 ≤ c.toNat) (hHigh : c.toNat < 0x800)
    (h₀ : b₀.toNat = c.toNat / 64 + 192) (h₁ : b₁.toNat = c.toNat % 64 + 128) :
    String.utf8EncodeChar c = [b₀, b₁] := by
  have hValue : c.val.toNat = c.toNat := rfl
  rw [String.utf8EncodeChar.eq_1, if_neg (by omega), if_pos (by omega), hValue,
    Nat.mod_eq_of_lt (by omega : c.toNat / 64 < 32), ofNat_of_toNat_eq h₀, ofNat_of_toNat_eq h₁]

/-- A character of three bytes. -/
theorem encode_three (hLow : 0x800 ≤ c.toNat) (hHigh : c.toNat < 0x10000)
    (h₀ : b₀.toNat = c.toNat / 4096 + 224) (h₁ : b₁.toNat = c.toNat / 64 % 64 + 128)
    (h₂ : b₂.toNat = c.toNat % 64 + 128) : String.utf8EncodeChar c = [b₀, b₁, b₂] := by
  have hValue : c.val.toNat = c.toNat := rfl
  rw [String.utf8EncodeChar.eq_1, if_neg (by omega), if_neg (by omega), if_pos (by omega), hValue,
    Nat.mod_eq_of_lt (by omega : c.toNat / 4096 < 16), ofNat_of_toNat_eq h₀, ofNat_of_toNat_eq h₁,
    ofNat_of_toNat_eq h₂]

/-- A character of four bytes. -/
theorem encode_four (hLow : 0x10000 ≤ c.toNat) (h₀ : b₀.toNat = c.toNat / 262144 + 240)
    (h₁ : b₁.toNat = c.toNat / 4096 % 64 + 128) (h₂ : b₂.toNat = c.toNat / 64 % 64 + 128)
    (h₃ : b₃.toNat = c.toNat % 64 + 128) : String.utf8EncodeChar c = [b₀, b₁, b₂, b₃] := by
  have hValue : c.val.toNat = c.toNat := rfl
  have hValid := isValidChar_toNat c
  rw [String.utf8EncodeChar.eq_1, if_neg (by omega), if_neg (by omega), if_neg (by omega), hValue,
    Nat.mod_eq_of_lt (by omega : c.toNat / 262144 < 8), ofNat_of_toNat_eq h₀,
    ofNat_of_toNat_eq h₁, ofNat_of_toNat_eq h₂, ofNat_of_toNat_eq h₃]

/-- Only ASCII characters have ASCII bytes. -/
theorem le_of_mem_encode (h : 0x80 ≤ c.toNat) : ∀ b ∈ String.utf8EncodeChar c, 0x80 ≤ b := by
  intro b hb
  rw [UInt8.le_iff_toNat_le]
  have hValue : c.val.toNat = c.toNat := rfl
  have hValid := isValidChar_toNat c
  rw [String.utf8EncodeChar.eq_1, if_neg (by omega)] at hb
  split at hb
  · simp only [List.mem_cons, List.not_mem_nil, or_false] at hb
    rcases hb with rfl | rfl <;> rw [UInt8.toNat_ofNat'] <;>
      simp only [UInt8.reduceToNat] <;> omega
  split at hb
  · simp only [List.mem_cons, List.not_mem_nil, or_false] at hb
    rcases hb with rfl | rfl | rfl <;> rw [UInt8.toNat_ofNat'] <;>
      simp only [UInt8.reduceToNat] <;> omega
  · simp only [List.mem_cons, List.not_mem_nil, or_false] at hb
    rcases hb with rfl | rfl | rfl | rfl <;> rw [UInt8.toNat_ofNat'] <;>
      simp only [UInt8.reduceToNat] <;> omega

theorem toNat_ofNat_ascii (h : c.toNat < 0x80) : (UInt8.ofNat c.toNat).toNat = c.toNat :=
  UInt8.toNat_ofNat_of_lt' (by omega : c.toNat < 256)

theorem encode_ascii (h : c.toNat < 0x80) : String.utf8EncodeChar c = [UInt8.ofNat c.toNat] :=
  encode_one h (toNat_ofNat_ascii h)

/-- The byte of an ASCII character is zero for one character only. -/
theorem ofNat_ascii_ne_zero (h : c.toNat < 0x80) (hc : c.toNat ≠ 0) : UInt8.ofNat c.toNat ≠ 0 := by
  intro hZero
  rw [← toNat_ofNat_ascii h, hZero] at hc
  exact hc rfl

/-- An ASCII byte among the bytes of a character is the whole of it. -/
theorem eq_ofNat_of_mem_encode {b : UInt8} (hb : b < 0x80) (h : b ∈ String.utf8EncodeChar c) :
    c = Char.ofNat b.toNat := by
  have hAscii : c.toNat < 0x80 := by
    refine Nat.lt_of_not_le fun hLarge => ?_
    have hByte := UInt8.le_iff_toNat_le.mp (le_of_mem_encode hLarge b h)
    exact absurd (UInt8.lt_iff_toNat_lt.mp hb) (Nat.not_lt.mpr hByte)
  rw [encode_ascii hAscii, List.mem_singleton] at h
  rw [h, toNat_ofNat_ascii hAscii, Char.ofNat_toNat]

end encoding

namespace Rune

variable {b c d e : UInt8}

theorem payload_eq (b : UInt8) : payload b = b.toNat - 0x80 := rfl

theorem isTail_iff : isTail b = true ↔ 0x80 ≤ b.toNat ∧ b.toNat ≤ 0xbf := by
  simp [isTail, UInt8.le_iff_toNat_le]

/-- The second byte of a sequence is bounded by the first one, which keeps out long forms,
surrogates and what lies beyond the last character. -/
theorem isSecond_iff : isSecond b c = true ↔
    ((b.toNat = 0xe0 ∧ 0xa0 ≤ c.toNat ∧ c.toNat ≤ 0xbf) ∨
      (b.toNat = 0xed ∧ 0x80 ≤ c.toNat ∧ c.toNat ≤ 0x9f) ∨
      (b.toNat = 0xf0 ∧ 0x90 ≤ c.toNat ∧ c.toNat ≤ 0xbf) ∨
      (b.toNat = 0xf4 ∧ 0x80 ≤ c.toNat ∧ c.toNat ≤ 0x8f) ∨
      (b.toNat ≠ 0xe0 ∧ b.toNat ≠ 0xed ∧ b.toNat ≠ 0xf0 ∧ b.toNat ≠ 0xf4 ∧
        0x80 ≤ c.toNat ∧ c.toNat ≤ 0xbf)) := by
  simp only [isSecond, secondRange, Bool.and_eq_true, decide_eq_true_eq, UInt8.le_iff_toNat_le,
    ← UInt8.toNat_inj, UInt8.reduceToNat]
  repeat' split
  all_goals simp only [UInt8.reduceToNat]; omega

/-- A character below 128 is written in the one byte it was read from. -/
theorem bytes_one (hb : b.toNat < 0x80) : (char (Char.ofNat b.toNat)).bytes = [b] := by
  have hNat : (Char.ofNat b.toNat).toNat = b.toNat := toNat_ofNat_of_isValidChar (Or.inl (by omega))
  exact encode_one (by omega) (by omega)

/-- A sequence of two bytes is what its character is written in. -/
theorem bytes_two (hLow : 0xc2 ≤ b.toNat) (hHigh : b.toNat < 0xe0) (hc : isTail c = true) :
    (char (Char.ofNat ((b.toNat - 0xc0) * 0x40 + payload c))).bytes = [b, c] := by
  have hTail := isTail_iff.mp hc
  obtain ⟨n, hn⟩ : ∃ n, n = (b.toNat - 0xc0) * 0x40 + payload c := ⟨_, rfl⟩
  simp only [payload_eq] at hn ⊢
  have hNat : (Char.ofNat n).toNat = n :=
    toNat_ofNat_of_isValidChar (Or.inl (by omega : n < 0xd800))
  simp only [← hn]
  exact encode_two (by omega) (by omega) (by omega) (by omega)

/-- A sequence of three bytes is what its character is written in; the bound on the second byte
excludes shorter forms and surrogates. -/
theorem bytes_three (hLow : 0xe0 ≤ b.toNat) (hHigh : b.toNat < 0xf0) (hc : isSecond b c = true)
    (hd : isTail d = true) :
    (char (Char.ofNat ((b.toNat - 0xe0) * 0x1000 + payload c * 0x40 + payload d))).bytes =
      [b, c, d] := by
  have hTail := isTail_iff.mp hd
  have hSecond := isSecond_iff.mp hc
  obtain ⟨n, hn⟩ : ∃ n, n = (b.toNat - 0xe0) * 0x1000 + payload c * 0x40 + payload d := ⟨_, rfl⟩
  simp only [payload_eq] at hn ⊢
  have hValid : n < 0xd800 ∨ (0xdfff < n ∧ n < 0x110000) := by omega
  have hNat : (Char.ofNat n).toNat = n := toNat_ofNat_of_isValidChar hValid
  simp only [← hn]
  exact encode_three (by omega) (by omega) (by omega) (by omega) (by omega)

/-- A sequence of four bytes is what its character is written in, up to the last character there is.
-/
theorem bytes_four (hLow : 0xf0 ≤ b.toNat) (hHigh : b.toNat < 0xf5) (hc : isSecond b c = true)
    (hd : isTail d = true) (he : isTail e = true) :
    (char (Char.ofNat ((b.toNat - 0xf0) * 0x40000 + payload c * 0x1000 + payload d * 0x40 +
      payload e))).bytes = [b, c, d, e] := by
  have hThird := isTail_iff.mp hd
  have hTail := isTail_iff.mp he
  have hSecond := isSecond_iff.mp hc
  obtain ⟨n, hn⟩ : ∃ n, n = (b.toNat - 0xf0) * 0x40000 + payload c * 0x1000 + payload d * 0x40 +
    payload e := ⟨_, rfl⟩
  simp only [payload_eq] at hn ⊢
  have hValid : n < 0xd800 ∨ (0xdfff < n ∧ n < 0x110000) := by omega
  have hNat : (Char.ofNat n).toNat = n := toNat_ofNat_of_isValidChar hValid
  simp only [← hn]
  exact encode_four (by omega) (by omega) (by omega) (by omega) (by omega)

/-- The bytes of a rune that was read are the bytes it was read from. -/
theorem first_bytes (b : UInt8) (rest : Text) :
    (first b rest).1.bytes ++ rest.drop (first b rest).2 = b :: rest := by
  rw [first.eq_def]
  split
  · rename_i hOne
    rw [bytes_one (UInt8.lt_iff_toNat_lt.mp hOne)]
    rfl
  split
  · rename_i hTwo
    split
    · split
      · rename_i hTail
        rw [bytes_two (UInt8.le_iff_toNat_le.mp hTwo.1) (UInt8.lt_iff_toNat_lt.mp hTwo.2) hTail]
        rfl
      · rfl
    · rfl
  split
  · rename_i hThree
    split
    · split
      · rename_i hTails
        obtain ⟨hSecond, hTail⟩ := Bool.and_eq_true_iff.mp hTails
        rw [bytes_three (UInt8.le_iff_toNat_le.mp hThree.1) (UInt8.lt_iff_toNat_lt.mp hThree.2)
          hSecond hTail]
        rfl
      · rfl
    · rfl
  split
  · rename_i hFour
    split
    · split
      · rename_i hTails
        obtain ⟨hFirst, hTail⟩ := Bool.and_eq_true_iff.mp hTails
        obtain ⟨hSecond, hThird⟩ := Bool.and_eq_true_iff.mp hFirst
        rw [bytes_four (UInt8.le_iff_toNat_le.mp hFour.1) (UInt8.lt_iff_toNat_lt.mp hFour.2)
          hSecond hThird hTail]
        rfl
      · rfl
    · rfl
  · rfl

section reading

variable {x : Char} (rest : Text)

theorem char_ofNat_eq {n : Nat} (h : n = x.toNat) : char (Char.ofNat n) = char x := by
  rw [h, Char.ofNat_toNat]

theorem first_one (hx : x.toNat < 0x80) (hb : b.toNat = x.toNat) : first b rest = (char x, 0) := by
  have hLead : b < 0x80 := by
    simp only [UInt8.lt_iff_toNat_lt, UInt8.reduceToNat]
    omega
  rw [first.eq_def, if_pos hLead, char_ofNat_eq hb]

/-- The two bytes of a character are read back as one rune. -/
theorem first_two (hLow : 0x80 ≤ x.toNat) (hHigh : x.toNat < 0x800)
    (hb : b.toNat = x.toNat / 64 + 192) (hc : c.toNat = x.toNat % 64 + 128) :
    first b (c :: rest) = (char x, 1) := by
  have hLead : ¬ b < 0x80 ∧ 0xc2 ≤ b ∧ b < 0xe0 := by
    simp only [UInt8.lt_iff_toNat_lt, UInt8.le_iff_toNat_le, UInt8.reduceToNat]
    omega
  have hTail : isTail c = true := isTail_iff.mpr (by omega)
  have hCode : char (Char.ofNat ((b.toNat - 0xc0) * 0x40 + payload c)) = char x :=
    char_ofNat_eq (by rw [payload_eq]; omega)
  rw [first.eq_def, if_neg hLead.1, if_pos hLead.2]
  dsimp only
  rw [if_pos hTail, hCode]

/-- The three bytes of a character are read back as one rune. That the character is no surrogate is
needed for the second byte. -/
theorem first_three (hLow : 0x800 ≤ x.toNat) (hHigh : x.toNat < 0x10000)
    (hb : b.toNat = x.toNat / 4096 + 224) (hc : c.toNat = x.toNat / 64 % 64 + 128)
    (hd : d.toNat = x.toNat % 64 + 128) : first b (c :: d :: rest) = (char x, 2) := by
  have hValid := isValidChar_toNat x
  have hLead : ¬ b < 0x80 ∧ ¬ (0xc2 ≤ b ∧ b < 0xe0) ∧ 0xe0 ≤ b ∧ b < 0xf0 := by
    simp only [UInt8.lt_iff_toNat_lt, UInt8.le_iff_toNat_le, UInt8.reduceToNat]
    omega
  have hSecond : isSecond b c = true := isSecond_iff.mpr (by omega)
  have hTail : isTail d = true := isTail_iff.mpr (by omega)
  have hCode : char (Char.ofNat ((b.toNat - 0xe0) * 0x1000 + payload c * 0x40 + payload d)) =
      char x := char_ofNat_eq (by rw [payload_eq, payload_eq]; omega)
  rw [first.eq_def, if_neg hLead.1, if_neg hLead.2.1, if_pos hLead.2.2]
  dsimp only
  rw [hSecond, hTail, Bool.and_true, if_pos rfl, hCode]

/-- The four bytes of a character are read back as one rune. -/
theorem first_four (hLow : 0x10000 ≤ x.toNat) (hb : b.toNat = x.toNat / 262144 + 240)
    (hc : c.toNat = x.toNat / 4096 % 64 + 128) (hd : d.toNat = x.toNat / 64 % 64 + 128)
    (he : e.toNat = x.toNat % 64 + 128) : first b (c :: d :: e :: rest) = (char x, 3) := by
  have hValid := isValidChar_toNat x
  have hLead : ¬ b < 0x80 ∧ ¬ (0xc2 ≤ b ∧ b < 0xe0) ∧ ¬ (0xe0 ≤ b ∧ b < 0xf0) ∧
      0xf0 ≤ b ∧ b < 0xf5 := by
    simp only [UInt8.lt_iff_toNat_lt, UInt8.le_iff_toNat_le, UInt8.reduceToNat]
    omega
  have hSecond : isSecond b c = true := isSecond_iff.mpr (by omega)
  have hThird : isTail d = true := isTail_iff.mpr (by omega)
  have hTail : isTail e = true := isTail_iff.mpr (by omega)
  have hCode : char (Char.ofNat
      ((b.toNat - 0xf0) * 0x40000 + payload c * 0x1000 + payload d * 0x40 + payload e)) = char x :=
    char_ofNat_eq (by rw [payload_eq, payload_eq, payload_eq]; omega)
  rw [first.eq_def, if_neg hLead.1, if_neg hLead.2.1, if_neg hLead.2.2.1, if_pos hLead.2.2.2]
  dsimp only
  rw [hSecond, hThird, hTail, Bool.and_true, Bool.and_true, if_pos rfl, hCode]

end reading

/-- The first rune of an encoded character is that character. -/
theorem first_encoded (x : Char) (rest : Text) :
    ∃ b bs, String.utf8EncodeChar x = b :: bs ∧ first b (bs ++ rest) = (char x, bs.length) := by
  have hValid := isValidChar_toNat x
  have hByte : ∀ n, n < 256 → ∃ b : UInt8, b.toNat = n :=
    fun n hn => ⟨UInt8.ofNat n, UInt8.toNat_ofNat_of_lt' hn⟩
  by_cases hOne : x.toNat < 0x80
  · obtain ⟨b, hb⟩ := hByte x.toNat (by omega)
    exact ⟨b, [], encode_one hOne hb, first_one rest hOne hb⟩
  obtain ⟨z, hz⟩ := hByte (x.toNat % 64 + 128) (by omega)
  by_cases hTwo : x.toNat < 0x800
  · obtain ⟨b, hb⟩ := hByte (x.toNat / 64 + 192) (by omega)
    exact ⟨b, [z], encode_two (by omega) hTwo hb hz, first_two rest (by omega) hTwo hb hz⟩
  obtain ⟨y, hy⟩ := hByte (x.toNat / 64 % 64 + 128) (by omega)
  by_cases hThree : x.toNat < 0x10000
  · obtain ⟨b, hb⟩ := hByte (x.toNat / 4096 + 224) (by omega)
    exact ⟨b, [y, z], encode_three (by omega) hThree hb hy hz,
      first_three rest (by omega) hThree hb hy hz⟩
  · obtain ⟨b, hb⟩ := hByte (x.toNat / 262144 + 240) (by omega)
    obtain ⟨c, hc⟩ := hByte (x.toNat / 4096 % 64 + 128) (by omega)
    exact ⟨b, [c, y, z], encode_four (by omega) hb hc hy hz,
      first_four rest (by omega) hb hc hy hz⟩

end Rune

namespace Text

/-- The runes after the bytes that are owed give the bytes after them. -/
theorem ofRunes_runesAfter (owed : Nat) (t : Text) : ofRunes (runesAfter owed t) = t.drop owed := by
  induction t generalizing owed with
  | nil => simp [runesAfter, ofRunes]
  | cons b rest ih =>
      cases owed with
      | succ owed => simpa [runesAfter] using ih owed
      | zero =>
          rw [runesAfter, ofRunes, List.flatMap_cons, ← ofRunes, ih, Rune.first_bytes,
            List.drop_zero]

/-- No byte is lost or changed by reading a text. -/
theorem ofRunes_runes (t : Text) : ofRunes t.runes = t := ofRunes_runesAfter 0 t

theorem runesAfter_length_append (t rest : Text) :
    runesAfter t.length (t ++ rest) = runesAfter 0 rest := by
  induction t with
  | nil => rfl
  | cons b t ih => exact ih

/-- The encoding of a list of characters is read as these characters. -/
theorem runes_encode_append (cs : List Char) (rest : Text) :
    runes (cs.flatMap String.utf8EncodeChar ++ rest) = cs.map Rune.char ++ rest.runes := by
  induction cs with
  | nil => rfl
  | cons c cs ih =>
      obtain ⟨b, bs, hBytes, hFirst⟩ :=
        Rune.first_encoded c (cs.flatMap String.utf8EncodeChar ++ rest)
      rw [List.flatMap_cons, List.append_assoc, hBytes, List.cons_append, runes, runesAfter, hFirst,
        runesAfter_length_append, List.map_cons, List.cons_append, ← ih, runes]

/-- Characters written one after the other are read back one by one. -/
theorem runes_encodings (cs : List Char) :
    runes (cs.flatMap String.utf8EncodeChar) = cs.map Rune.char := by
  have hEnd := runes_encode_append cs []
  rw [List.append_nil] at hEnd
  rw [hEnd]
  exact List.append_nil _

/-- The texts without a stray byte are the encodings of lists of characters. -/
theorem isUtf8_iff {t : Text} :
    t.isUtf8 = true ↔ ∃ cs : List Char, t = cs.flatMap String.utf8EncodeChar := by
  constructor
  · intro h
    have hRunes : ∃ cs : List Char, t.runes = cs.map Rune.char := by
      rw [isUtf8] at h
      generalize t.runes = rs at h
      induction rs with
      | nil => exact ⟨[], rfl⟩
      | cons r rs ih =>
          rw [List.all_cons, Bool.and_eq_true] at h
          obtain ⟨cs, hcs⟩ := ih h.2
          cases r with
          | char c => exact ⟨c :: cs, by rw [hcs, List.map_cons]⟩
          | invalid b => cases h.1
    obtain ⟨cs, hcs⟩ := hRunes
    refine ⟨cs, ?_⟩
    rw [← ofRunes_runes t, hcs, ofRunes, List.flatMap_map]
    rfl
  · rintro ⟨cs, rfl⟩
    rw [isUtf8, runes_encodings]
    simp

/-- Well-formed texts can be put together. -/
theorem isUtf8_append {s t : Text} (hs : s.isUtf8 = true) (ht : t.isUtf8 = true) :
    (s ++ t).isUtf8 = true := by
  obtain ⟨cs, rfl⟩ := isUtf8_iff.mp hs
  obtain ⟨ds, rfl⟩ := isUtf8_iff.mp ht
  exact isUtf8_iff.mpr ⟨cs ++ ds, List.flatMap_append.symm⟩

theorem isUtf8_nil : isUtf8 [] = true := rfl

theorem isUtf8_encode (c : Char) : isUtf8 (String.utf8EncodeChar c) = true :=
  isUtf8_iff.mpr ⟨[c], by simp⟩

/-- So can any number of them. -/
theorem isUtf8_flatten {ts : List Text} (h : ∀ t ∈ ts, t.isUtf8 = true) :
    isUtf8 ts.flatten = true := by
  induction ts with
  | nil => rfl
  | cons t ts ih =>
      have hMore := ih fun u hu => h u (List.mem_cons_of_mem _ hu)
      exact isUtf8_append (h t List.mem_cons_self) hMore

end Text

end Runsheet
