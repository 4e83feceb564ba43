import Runsheet.Proofs.Shell.Words
import Mathlib.Algebra.Group.Nat.Defs

/-! Every text without a zero byte is read back from its quoted form as one word. So the line of a
command is read as the words of the command, unless its tool is taken for a reserved word. -/
namespace Runsheet

namespace Shell

namespace Reader

variable {r r' : Reader} {b : UInt8} {t : Text}

theorem add_nil {w : Text} (h : r.word = some w) : r.add [] = r := by
  cases r
  cases h
  simp [add]

/-- What is added in two parts is added as a whole. -/
theorem add_add (r : Reader) (s t : Text) : (r.add s).add t = r.add (s ++ t) := by
  simp [add]

theorem put_eq (h : b ≠ 0) : r.put b = some (r.add [b]) := if_neg h

/-- Pieces of a line that are read one after another in one mode. -/
theorem read_flatMap {α : Type} (line bytes : α → Text) {w : Text} (xs : List α)
    (hWord : r.word = some w)
    (hRead : ∀ x ∈ xs, ∀ (s : Reader) (v : Text), s.mode = r.mode → s.word = some v →
      (line x).foldlM step s = some (s.add (bytes x))) :
    (xs.flatMap line).foldlM step r = some (r.add (xs.flatMap bytes)) := by
  induction xs generalizing r w with
  | nil => exact congrArg some (add_nil hWord).symm
  | cons x xs ih =>
      have hFirst := hRead x List.mem_cons_self r w rfl hWord
      have hRest := ih (r := r.add (bytes x)) rfl fun y hy => hRead y (List.mem_cons_of_mem _ hy)
      rw [List.flatMap_cons, List.foldlM_append, hFirst, List.flatMap_cons, ← add_add]
      exact hRest

/-- Bytes that are all put as they stand. -/
theorem read_of_put {w : Text} (hWord : r.word = some w)
    (hStep : ∀ b ∈ t, ∀ s : Reader, s.mode = r.mode → s.step b = some (s.add [b])) :
    t.foldlM step r = some (r.add t) := by
  have hSelf : t.flatMap (fun b => [b]) = t := by simp
  have hRead := read_flatMap (fun b => [b]) (fun b => [b]) t hWord
    fun b hb s _ hs _ => by rw [List.foldlM_cons, hStep b hb s hs]; rfl
  rwa [hSelf] at hRead

end Reader

section ansi

open Reader

variable {r : Reader} {w : Text}

/-- A hexadecimal digit is read back as the number it was written for. -/
theorem digit?_hexDigit {n : Nat} (h : n < 16) : digit? 16 (Text.hexDigit n) = some n := by
  have hAll : ∀ n < 16, digit? 16 (Text.hexDigit n) = some n := by decide
  exact hAll n h

/-- Each digit of an escape moves the number up by one place; the last one ends the escape. -/
theorem step_hexDigit (r : Reader) (room n : Nat) (value : Option Nat) (isCode : Bool) (h : n < 16) :
    (r.into (.number 16 room value isCode)).step (Text.hexDigit n) =
      if room = 1 then (r.into .ansi).putNumber (value.getD 0 * 16 + n) isCode
      else some (r.into (.number 16 (room - 1) (some (value.getD 0 * 16 + n)) isCode)) := by
  change (r.into (.number 16 room value isCode)).stepNumber 16 room value isCode _ = _
  rw [stepNumber.eq_def, digit?_hexDigit h]
  rfl

/-- A number of one more digit is its lower digits and the next one above them. -/
theorem mod_pow_succ (n width : Nat) :
    n / 16 % 16 ^ width * 16 + n % 16 = n % 16 ^ (width + 1) := by
  rw [Nat.pow_succ', Nat.mod_mul]
  omega

/-- Hexadecimal digits, of which there may be more. -/
theorem read_hexFixed (r : Reader) (width room n : Nat) (value : Option Nat) (isCode : Bool) :
    (Text.hexFixed (width + 1) n).foldlM step
        (r.into (.number 16 (width + 1 + (room + 1)) value isCode)) =
      some (r.into (.number 16 (room + 1)
        (some (value.getD 0 * 16 ^ (width + 1) + n % 16 ^ (width + 1))) isCode)) := by
  induction width generalizing room n with
  | zero =>
      simp only [Text.hexFixed, List.nil_append, List.foldlM_cons, List.foldlM_nil]
      rw [step_hexDigit r _ _ _ _ (Nat.mod_lt n (by decide)), if_neg (by omega)]
      simp [Nat.add_comm 1 (room + 1)]
  | succ width ih =>
      rw [Text.hexFixed, List.foldlM_append, show width + 1 + 1 + (room + 1) = width + 1 + (room + 1 + 1)
        by omega, ih]
      change List.foldlM step _ [Text.hexDigit (n % 16)] = _
      rw [List.foldlM_cons, step_hexDigit r _ _ _ _ (Nat.mod_lt n (by decide)), if_neg (by omega)]
      have hValue : (value.getD 0 * 16 ^ (width + 1) + n / 16 % 16 ^ (width + 1)) * 16 + n % 16 =
          value.getD 0 * 16 ^ (width + 1 + 1) + n % 16 ^ (width + 1 + 1) := by
        rw [← mod_pow_succ n (width + 1), Nat.pow_succ 16 (width + 1), Nat.add_mul, Nat.mul_assoc,
          Nat.add_assoc]
      simp [hValue]

/-- Hexadecimal digits after which there are no more. -/
theorem read_number (r : Reader) (width : Nat) {n : Nat} (isCode : Bool)
    (hn : n < 16 ^ (width + 2)) :
    (Text.hexFixed (width + 2) n).foldlM step (r.into (.number 16 (width + 2) none isCode)) =
      (r.into .ansi).putNumber n isCode := by
  rw [Text.hexFixed, List.foldlM_append, show width + 2 = width + 1 + (0 + 1) by omega,
    read_hexFixed]
  change List.foldlM step _ [Text.hexDigit (n % 16)] = _
  rw [List.foldlM_cons, step_hexDigit r _ _ _ _ (Nat.mod_lt n (by decide)), if_pos (by omega)]
  have hValue : n / 16 % 16 ^ (width + 1) * 16 + n % 16 = n := by
    rw [mod_pow_succ, Nat.mod_eq_of_lt hn]
  simp [hValue]

/-- A backslash and a mark that goes with it. -/
theorem read_ansiLetter {b c : UInt8} (hMode : r.mode = .ansi)
    (hLetter : ansiLetters.lookup b = some c) (hc : c ≠ 0) :
    [92, b].foldlM step r = some (r.add [c]) := by
  have hBackslash : r.step 92 = some (r.into .ansiEscape) := by
    rw [step, hMode]
    rfl
  have hMark : (r.into .ansiEscape).step b = some ((r.into .ansi).add [c]) := by
    change (r.into .ansiEscape).stepAnsiEscape b = _
    rw [stepAnsiEscape, hLetter]
    exact put_eq hc
  have hSame : r.into .ansi = r := by
    rw [into, ← hMode]
  rw [List.foldlM_cons, hBackslash]
  change List.foldlM step _ [b] = _
  rw [List.foldlM_cons, hMark, hSame]
  rfl

/-- A backslash, a letter and all the digits that may follow. -/
theorem read_numericEscape {b : UInt8} (width : Nat) {n : Nat} {isCode : Bool} {s : Reader}
    (hMode : r.mode = .ansi) (hLetter : ∀ r : Reader, r.stepAnsiEscape b =
      some (r.into (.number 16 (width + 2) none isCode)))
    (hn : n < 16 ^ (width + 2)) (hPut : r.putNumber n isCode = some s) :
    (92 :: b :: Text.hexFixed (width + 2) n).foldlM step r = some s := by
  have hBackslash : r.step 92 = some (r.into .ansiEscape) := by
    rw [step, hMode]
    rfl
  have hSame : r.into .ansi = r := by
    rw [into, ← hMode]
  have hStart : (r.into .ansiEscape).step b = some (r.into (.number 16 (width + 2) none isCode)) :=
    hLetter (r.into .ansiEscape)
  rw [List.foldlM_cons, hBackslash]
  change List.foldlM step _ (b :: _) = _
  rw [List.foldlM_cons, hStart]
  change List.foldlM step _ _ = _
  rw [read_number r width isCode hn, hSame, hPut]

/-- An escape for a byte puts that byte, even if it belongs to no well-formed sequence. -/
theorem putNumber_byte {b : UInt8} {n : Nat} (h : b.toNat = n) (hb : b ≠ 0) :
    r.putNumber n false = some (r.add [b]) := by
  change r.put (UInt8.ofNat n) = _
  rw [ofNat_of_toNat_eq h, put_eq hb]

/-- An escape for a character puts all its bytes. -/
theorem putNumber_char {c : Char} (h : c.toNat ≠ 0) :
    r.putNumber c.toNat true = some (r.add (String.utf8EncodeChar c)) := by
  have hValid : c.toNat ≠ 0 ∧ c.toNat.isValidChar := ⟨h, c.valid⟩
  rw [putNumber, if_pos rfl, if_pos hValid, Char.ofNat_toNat]

/-- The letter of a control character is read as that character. -/
theorem lookup_controlLetter {code : Nat} {letter : UInt8} (h : controlLetter? code = some letter) :
    ansiLetters.lookup letter = some (UInt8.ofNat code) ∧ code ≠ 0 ∧ code < 0x80 := by
  rw [controlLetter?.eq_def] at h
  split at h <;> first | (cases h; decide) | cases h

/-- A byte of a character other than a quote and a backslash is read as itself. -/
theorem read_encoded {c : Char} (hMode : r.mode = .ansi) (hWord : r.word = some w)
    (hZero : 0 ∉ String.utf8EncodeChar c) (hQuote : c ≠ '\'') (hBackslash : c ≠ '\\') :
    (String.utf8EncodeChar c).foldlM step r = some (r.add (String.utf8EncodeChar c)) := by
  refine read_of_put hWord fun b hb s hs => ?_
  have hOther : b ≠ 39 ∧ b ≠ 92 := by
    constructor
    · rintro rfl
      exact hQuote (eq_ofNat_of_mem_encode (by decide) hb)
    · rintro rfl
      exact hBackslash (eq_ofNat_of_mem_encode (by decide) hb)
  have hNonzero : b ≠ 0 := fun h => hZero (h ▸ hb)
  rw [step, hs, hMode]
  change s.stepAnsi b = _
  rw [stepAnsi, if_neg hOther.1, if_neg hOther.2, put_eq hNonzero]

/-- A character that is escaped by its number. -/
theorem read_numeric {c : Char} (hMode : r.mode = .ansi) (hNonzero : c.toNat ≠ 0) :
    (numericEscape c.toNat).foldlM step r = some (r.add (String.utf8EncodeChar c)) := by
  rw [numericEscape]
  split
  · rename_i hAscii
    rw [encode_ascii hAscii]
    exact read_numericEscape (b := 120) 0 hMode (fun _ => rfl) (by omega)
      (putNumber_byte (toNat_ofNat_ascii hAscii) (ofNat_ascii_ne_zero hAscii hNonzero))
  split
  · exact read_numericEscape (b := 117) 2 hMode (fun _ => rfl) (by omega)
      (putNumber_char hNonzero)
  · have hValid := isValidChar_toNat c
    exact read_numericEscape (b := 85) 6 hMode (fun _ => rfl) (by omega)
      (putNumber_char hNonzero)

/-- An escape of a rune is read as its bytes. -/
theorem read_escaped {rune : Rune} (hMode : r.mode = .ansi) (hWord : r.word = some w)
    (hZero : 0 ∉ rune.bytes) : (escaped rune).foldlM step r = some (r.add rune.bytes) := by
  cases rune with
  | invalid b =>
      have hb : b ≠ 0 := by simpa [Rune.bytes, eq_comm] using hZero
      exact read_numericEscape (b := 120) 0 hMode (fun _ => rfl) b.toNat_lt
        (putNumber_byte rfl hb)
  | char c =>
      rw [Rune.bytes] at hZero ⊢
      have hNonzero : c.toNat ≠ 0 := by
        intro h
        refine hZero ?_
        rw [encode_ascii (by omega), h]
        exact List.mem_singleton_self _
      rw [escaped]
      split
      · rename_i hQuote
        rw [hQuote]
        exact read_ansiLetter (b := 39) hMode rfl (by decide)
      split
      · rename_i hQuote hBackslash
        rw [hBackslash]
        exact read_ansiLetter (b := 92) hMode rfl (by decide)
      split
      · rename_i hQuote hBackslash _
        exact read_encoded hMode hWord hZero hQuote hBackslash
      split
      · rename_i letter hLetter
        obtain ⟨hLookup, -, hAscii⟩ := lookup_controlLetter hLetter
        rw [encode_ascii hAscii]
        exact read_ansiLetter hMode hLookup (ofNat_ascii_ne_zero hAscii hNonzero)
      · exact read_numeric hMode hNonzero

/-- All escapes of a text are read as the text. -/
theorem read_runes {t : Text} (hMode : r.mode = .ansi) (hWord : r.word = some w) (hZero : 0 ∉ t) :
    (t.runes.flatMap escaped).foldlM step r = some (r.add t) := by
  have hRead := read_flatMap escaped Rune.bytes t.runes hWord
    fun rune hRune s v hs hv => read_escaped (hs.trans hMode) hv fun hMem => hZero ?_
  · rw [hRead, ← Text.ofRunes, Text.ofRunes_runes]
  · rw [← Text.ofRunes_runes t]
    exact List.mem_flatMap.mpr ⟨rune, hRune, hMem⟩

end ansi

open Reader

variable {t : Text}

def isPlainWord (t : Text) : Bool :=
  !t.isEmpty && !t.runes.any needsEscape && !t.runes.any isSpecialRune && !isReserved t

/-- Whether a byte outside of quotes is read as anything but itself. -/
def hasMeaning (b : UInt8) : Bool := [32, 9, 39, 34, 92, 36].contains b || isActive b

theorem stepBare_eq_put {r : Reader} {b : UInt8} (h : hasMeaning b = false) :
    r.stepBare b = r.put b := by
  simp only [hasMeaning, Bool.or_eq_false_iff, List.contains_eq_mem, List.mem_cons,
    List.not_mem_nil, or_false, decide_eq_false_iff_not, not_or] at h
  simp [stepBare, h]

/-- Only characters that are put in quotes have a meaning outside of them. -/
theorem isSpecial_of_hasMeaning {c : Char} {b : UInt8} (hb : b ∈ String.utf8EncodeChar c)
    (h : hasMeaning b = true) : isSpecial c = true := by
  have hAll : ∀ n < 256, hasMeaning (UInt8.ofNat n) = true →
      n < 128 ∧ isSpecial (Char.ofNat n) = true := by decide +kernel
  obtain ⟨hSmall, hSpecial⟩ := hAll b.toNat b.toNat_lt (by rwa [UInt8.ofNat_toNat])
  have hAscii : b < 0x80 := UInt8.lt_iff_toNat_lt.mpr hSmall
  rwa [← eq_ofNat_of_mem_encode hAscii hb] at hSpecial

/-- A text between quotes that are opened and closed around it. -/
theorem read_between {words : List Text} {lead body : Text} {last : UInt8} (mode : ReadMode)
    (hLead : lead.foldlM step { words } =
      some { words, word := some [], isPlain := false, mode })
    (hBody : ∀ r : Reader, r.mode = mode → r.word = some [] →
      body.foldlM step r = some (r.add t))
    (hLast : ∀ r : Reader, r.mode = mode → r.step last = some (r.into .bare)) :
    (lead ++ body ++ [last]).foldlM step { words } =
      some { words, word := some t, isPlain := false } := by
  rw [List.foldlM_append, List.foldlM_append, hLead]
  change (body.foldlM step _).bind _ = _
  rw [hBody _ rfl rfl]
  change List.foldlM step _ [last] = _
  rw [List.foldlM_cons, hLast _ rfl]
  rfl

theorem step_double {r : Reader} (hMode : r.mode = .double) (b : UInt8) :
    r.step b = r.stepDouble b := by
  rw [step, hMode]

/-- A byte between double quotes. -/
theorem read_guarded {r : Reader} {b : UInt8} (hMode : r.mode = .double) (hb : b ≠ 0) :
    (guarded b).foldlM step r = some (r.add [b]) := by
  have hSame : r.into .double = r := by
    rw [into, ← hMode]
  rw [guarded]
  split
  · rename_i hSpecial
    have hBackslash : r.step 92 = some (r.into .doubleEscape) := step_double hMode 92
    have hByte : (r.into .doubleEscape).step b = some (r.add [b]) := by
      change (r.into .doubleEscape).stepDoubleEscape b = _
      rw [stepDoubleEscape, if_pos hSpecial, put_eq hb]
      exact congrArg (fun s : Reader => some (s.add [b])) hSame
    rw [List.foldlM_cons, hBackslash]
    change List.foldlM step _ [b] = _
    rw [List.foldlM_cons, hByte]
    rfl
  · rename_i hPlain
    simp only [not_or] at hPlain
    have hByte : r.step b = some (r.add [b]) := by
      rw [step_double hMode, stepDouble, if_neg hPlain.1, if_neg hPlain.2.1,
        if_neg (by simp [hPlain]), put_eq hb]
    rw [List.foldlM_cons, hByte]
    rfl

/-- A text that stands as it is. -/
theorem read_plain (words : List Text) (hZero : 0 ∉ t) (hFilled : t ≠ [])
    (hEscape : t.runes.any needsEscape = false) (hSpecial : t.runes.any isSpecialRune = false) :
    t.foldlM step { words } = some { words, word := some t } := by
  have hStep : ∀ b ∈ t, ∀ r : Reader, r.mode = .bare → r.step b = some (r.add [b]) := by
    intro b hb r hr
    have hMeaning : hasMeaning b = false := by
      rw [← Text.ofRunes_runes t, Text.ofRunes, List.mem_flatMap] at hb
      obtain ⟨rune, hRune, hByte⟩ := hb
      have hKnown := List.any_eq_false.mp hEscape rune hRune
      have hMild := List.any_eq_false.mp hSpecial rune hRune
      cases rune with
      | invalid c => exact absurd rfl hKnown
      | char c => exact Bool.eq_false_iff.mpr fun h => hMild (isSpecial_of_hasMeaning hByte h)
    rw [step, hr]
    exact (stepBare_eq_put hMeaning).trans (put_eq fun h => hZero (h ▸ hb))
  cases t with
  | nil => exact absurd rfl hFilled
  | cons b t =>
      rw [List.foldlM_cons, hStep b List.mem_cons_self { words } rfl]
      exact read_of_put (r := ({ words } : Reader).add [b]) rfl
        fun c hc s hs => hStep c (List.mem_cons_of_mem _ hc) s hs

/-- A text is read back from its quoted form, and counts as plain if it was not changed. -/
theorem read_quote (words : List Text) (hZero : 0 ∉ t) :
    (quote t).foldlM step { words } =
      some { words, word := some t, isPlain := isPlainWord t } := by
  have hNonzero : ∀ b ∈ t, b ≠ 0 := fun b hb h => hZero (h ▸ hb)
  rw [quote]
  split
  · rename_i hEmpty
    rw [List.isEmpty_iff.mp hEmpty]
    rfl
  rename_i hFilled
  split
  · rename_i hHolds
    exact absurd (by simpa using hHolds) hZero
  split
  · rename_i hEscape
    rw [show isPlainWord t = false by simp [isPlainWord, hEscape]]
    refine read_between .ansi rfl (fun r hMode hWord => ?_) fun r hr => ?_
    · exact read_runes hMode hWord hZero
    · rw [step, hr]
      rfl
  rename_i hEscape
  split
  · rename_i hPlain
    have hMild : t.runes.any isSpecialRune = false := by
      cases hSpecial : t.runes.any isSpecialRune <;> simp_all
    rw [read_plain words hZero (by simpa using hFilled) (by simpa using hEscape) hMild]
    simp_all [isPlainWord]
  rename_i hQuoted
  rw [show isPlainWord t = false by
    rw [isPlainWord, Bool.and_assoc, Bool.eq_false_iff.mpr hQuoted, Bool.and_false]]
  split
  · rename_i hSingle
    have hOther : ∀ b ∈ t, b ≠ 39 := by
      rintro b hb rfl
      simp [hb] at hSingle
    refine read_between .single rfl (fun r hMode hWord => ?_) fun r hr => ?_
    · refine read_of_put hWord fun b hb s hs => ?_
      rw [step, hs, hMode]
      exact (if_neg (hOther b hb)).trans (put_eq (hNonzero b hb))
    · rw [step, hr]
      rfl
  · refine read_between .double rfl (fun r hMode hWord => ?_) fun r hr => step_double hr 34
    have hRead := read_flatMap guarded (fun b => [b]) t hWord
      fun b hb s v hs _ => read_guarded (hs.trans hMode) (hNonzero b hb)
    simpa using hRead

theorem join_cons (x : Text) (xs : List Text) :
    Text.join " " (x :: xs) = x ++ xs.flatMap (32 :: ·) :=
  Text.join_cons " " x xs

/-- What is read after a word that cannot be taken for a reserved one. -/
theorem read_rest {rest : List Text} {r : Reader} {w : Text} (hMode : r.mode = .bare)
    (hWord : r.word = some w) (hEnd : r.endWord = some { words := r.words ++ [w] })
    (hZero : ∀ t ∈ rest, 0 ∉ t) :
    (((rest.map quote).flatMap (32 :: ·)).foldlM step r).bind finish =
      some (r.words ++ w :: rest) := by
  induction rest generalizing r w with
  | nil =>
      change r.finish = _
      rw [finish, if_pos hMode, hEnd]
      rfl
  | cons t rest ih =>
      have hBlank : r.step 32 = some { words := r.words ++ [w] } := by
        rw [step, hMode]
        exact hEnd
      have hQuote := read_quote (r.words ++ [w]) (hZero t List.mem_cons_self)
      have hNext : ({ words := r.words ++ [w], word := some t, isPlain := isPlainWord t } :
          Reader).endWord = some { words := r.words ++ [w] ++ [t] } := by
        simp [endWord]
      have hRest := ih (r := { words := r.words ++ [w], word := some t, isPlain := isPlainWord t })
        rfl rfl hNext fun u hu => hZero u (List.mem_cons_of_mem _ hu)
      rw [List.map_cons, List.flatMap_cons, List.cons_append, List.foldlM_cons, hBlank]
      change (List.foldlM step _ _).bind _ = _
      rw [List.foldlM_append, hQuote]
      simpa using hRest

/-- The only reserved word that is left as it is. -/
theorem isPlainWord_reserved_iff :
    isPlainWord t = true ∧ reservedWords.any (t == Text.ofString ·) = true ↔ t = "elif" := by
  constructor
  · rintro ⟨hPlain, hReserved⟩
    obtain ⟨word, hWord, hSame⟩ := List.any_eq_true.mp hReserved
    rw [beq_iff_eq.mp hSame] at hPlain ⊢
    have hAll : ∀ word ∈ reservedWords, isPlainWord (Text.ofString word) = true →
        Text.ofString word = Text.ofString "elif" := by decide +kernel
    exact hAll word hWord hPlain
  · rintro rfl
    decide +kernel

end Shell

namespace Command

open Shell

/-- A shell reads the line of a command as the words with which the command is run directly, unless
its tool is called `elif`, which is left as it is and is reserved where a command begins. -/
theorem words?_line (c : Command) (hZero : ∀ t ∈ c.argv, 0 ∉ t) :
    words? c.line = if c.tool = "elif" then none else some c.argv := by
  have hQuote := read_quote [] (hZero c.tool List.mem_cons_self)
  have hEnd : ({ words := [], word := some c.tool, isPlain := isPlainWord c.tool } :
      Reader).endWord = if c.tool = "elif" then none else some { words := [c.tool] } := by
    simp only [← isPlainWord_reserved_iff]
    simp [Reader.endWord]
  rw [words?, line, argv, List.map_cons, join_cons, List.foldlM_append, hQuote]
  split
  · rename_i hReserved
    rw [if_pos hReserved] at hEnd
    have hBlank : ({ word := some c.tool, isPlain := isPlainWord c.tool } : Reader).step 32 =
      none := hEnd
    change (List.foldlM Reader.step _ (32 :: _)).bind _ = _
    rw [List.foldlM_cons, hBlank]
    rfl
  · rename_i hOther
    rw [if_neg hOther] at hEnd
    exact read_rest rfl rfl hEnd fun t ht => hZero t (List.mem_cons_of_mem _ ht)

/-- A command of which no two words are quoted alike. -/
def variedCommand : Command :=
  { tool := "t'$", input := "elif", args := some [[], "-o", "a b", "\n\x7f", [255, 39], "case", "é"] }

/-- Empty, blank, reserved, stray and accented words in one line are all read back. So is the bare
word `elif`, which would not be read as a word if it came first. -/
theorem words?_line_variedCommand :
    (∀ t ∈ variedCommand.argv, 0 ∉ t) ∧ words? variedCommand.line = some variedCommand.argv := by
  have hZero : ∀ t ∈ variedCommand.argv, 0 ∉ t := by decide
  have hOther : variedCommand.tool ≠ "elif" := by decide
  exact ⟨hZero, (words?_line variedCommand hZero).trans (if_neg hOther)⟩

/-- The line of a command whose tool is called `elif` is not read as words. -/
theorem not_words?_line_elif :
    ¬ ∀ c : Command, (∀ t ∈ c.argv, 0 ∉ t) → words? c.line = some c.argv := by
  intro h
  have hNone : words? (Command.line ⟨"elif", "x", [], [], none⟩) = none := by decide +kernel
  have hRead := h ⟨"elif", "x", [], [], none⟩ (by decide)
  rw [hNone] at hRead
  cases hRead

end Command

end Runsheet
