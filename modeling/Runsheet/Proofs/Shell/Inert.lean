import Runsheet.Proofs.Shell.Quote
import Runsheet.Proofs.Token.Position

/-! What a shell makes of the line of any command, also of one with zero bytes in its words. A word
with a zero byte is only shown, between double quotes in which a shell still expands: the line is
read as literal words exactly when no such word holds what starts an expansion. -/
namespace Runsheet

namespace Shell

/-- The bytes after a dollar sign between double quotes with which an expansion starts: those of a
name or a number, the special parameters, and the brackets of substitutions. -/
def startsExpansion (b : UInt8) : Bool :=
  (48 ≤ b && b ≤ 57) || (65 ≤ b && b ≤ 90) || (97 ≤ b && b ≤ 122) ||
    (Text.ofString "_@*#?-$!(\x7b[").contains b

/-- Whether a text holds what starts an expansion between double quotes. -/
def expands : Text → Bool
  | [] => false
  | b :: rest => b = 96 || (b = 36 && rest.head?.any startsExpansion) || expands rest

namespace Reader

/-- Takes a byte of a line when the next one is known. Between double quotes a dollar sign with which
no expansion starts stands for itself. -/
def stepAhead (r : Reader) (b : UInt8) (next : Option UInt8) : Option Reader :=
  if r.mode = .double ∧ b = 36 ∧ next.any startsExpansion = false then r.put 36 else r.step b

/-- Takes the bytes of a line, each with the next one in view. -/
def readAhead (r : Reader) : Text → Option Reader
  | [] => some r
  | b :: rest => (r.stepAhead b rest.head?).bind (readAhead · rest)

end Reader

/-- The words as which a line is read, if it is literal words and nothing in it is expanded. -/
def literalWords? (line : Text) : Option (List Text) := (Reader.readAhead {} line).bind Reader.finish

/-- Whether a text is shown in such a way that a shell expands a part of it. -/
def showsExpansion (t : Text) : Bool := t.contains 0 && expands t

end Shell

/-- A rune that stands as it is quoted between double quotes, as a shell reads it. Only the escapes
of the quote and of the backslash are undone. -/
def Rune.shown (r : Rune) : Text := if r = .char '"' ∨ r = .char '\\' then r.bytes else r.quoted

def Shell.shown (t : Text) : Text := if t.contains 0 then t.runes.flatMap Rune.shown else t

namespace Shell

open Reader

section reading

variable {r r' : Reader} {b : UInt8} {t : Text}

/-- A reader that knows the next byte takes whatever one takes that does not. -/
theorem stepAhead_of_step (next : Option UInt8) (h : r.step b = some r') :
    r.stepAhead b next = some r' := by
  rw [stepAhead]
  split
  · rename_i hDollar
    obtain ⟨hMode, rfl, -⟩ := hDollar
    rw [step, hMode] at h
    cases h
  · exact h

/-- Reading ahead may start behind what was already read. -/
theorem readAhead_of_read (rest : Text) (h : t.foldlM step r = some r') :
    r.readAhead (t ++ rest) = r'.readAhead rest := by
  induction t generalizing r with
  | nil =>
      cases h
      rfl
  | cons b t ih =>
      rw [List.foldlM_cons] at h
      obtain ⟨r₁, hStep, hMore⟩ := Option.bind_eq_some_iff.mp h
      rw [List.cons_append, readAhead, stepAhead_of_step _ hStep]
      exact ih hMore

/-- Whether a byte stands for itself between double quotes, whatever is next. -/
def isMild (b : UInt8) : Bool := !([0, 34, 36, 92, 96] : Text).contains b

/-- Mild are all bytes but the five that mean something between double quotes. -/
theorem isMild_iff : isMild b = true ↔ b ≠ 0 ∧ b ≠ 34 ∧ b ≠ 36 ∧ b ≠ 92 ∧ b ≠ 96 := by
  simp [isMild]

/-- Bytes that stand for themselves. -/
theorem read_mild {w : Text} (hMode : r.mode = .double) (hWord : r.word = some w)
    (hMild : ∀ b ∈ t, isMild b = true) : t.foldlM step r = some (r.add t) := by
  refine read_of_put hWord fun b hb s hs => ?_
  obtain ⟨hZero, hQuote, hDollar, hBackslash, hBack⟩ := isMild_iff.mp (hMild b hb)
  rw [step_double (hs.trans hMode), stepDouble, if_neg hQuote, if_neg hBackslash,
    if_neg (by simp [hDollar, hBack]), put_eq hZero]

/-- A backslash before a letter stands for itself. -/
theorem read_letter {letter : UInt8} (hMode : r.mode = .double)
    (hLetter : isMild letter = true) (hNewline : letter ≠ 10)
    (hMild : ∀ b ∈ t, isMild b = true) :
    (92 :: letter :: t).foldlM step r = some (r.add (92 :: letter :: t)) := by
  obtain ⟨hZero, hQuote, hDollar, hBackslash, hBack⟩ := isMild_iff.mp hLetter
  have hSame : r.into .double = r := by
    rw [into, ← hMode]
  have hOpen : r.step 92 = some (r.into .doubleEscape) := step_double hMode 92
  have hByte : (r.into .doubleEscape).step letter = some (r.add [92, letter]) := by
    change (r.into .doubleEscape).stepDoubleEscape letter = _
    rw [stepDoubleEscape, if_neg (by simp [hQuote, hBackslash, hBack, hDollar]), if_neg hNewline,
      put_eq hZero, add_add]
    exact congrArg (fun s : Reader => some (s.add [92, letter])) hSame
  rw [List.foldlM_cons, hOpen]
  change List.foldlM step _ (letter :: t) = _
  rw [List.foldlM_cons, hByte]
  change List.foldlM step _ t = _
  rw [read_mild (r := r.add [92, letter]) hMode rfl hMild, add_add]
  rfl

/-- A backslash before a quote or another backslash is taken off. -/
theorem read_undone (hMode : r.mode = .double) (hb : b = 34 ∨ b = 92) :
    [92, b].foldlM step r = some (r.add [b]) := by
  have hGuarded : guarded b = [92, b] := by
    rcases hb with rfl | rfl
    · rfl
    · rfl
  rw [← hGuarded]
  exact read_guarded hMode (by rcases hb with rfl | rfl <;> decide)

/-- Where a dollar sign between double quotes starts an expansion, reading stops. -/
theorem readAhead_dollar (hMode : r.mode = .double) (line : Text) :
    r.readAhead (36 :: line) =
      if line.head?.any startsExpansion then none else (r.add [36]).readAhead line := by
  have hStop : r.step 36 = none := by
    rw [step_double hMode]
    rfl
  rw [readAhead, stepAhead]
  cases hStarts : line.head?.any startsExpansion with
  | true =>
      rw [if_neg (by simp), hStop]
      rfl
  | false =>
      rw [if_pos ⟨hMode, rfl, rfl⟩, put_eq (by decide)]
      rfl

/-- A backquote between double quotes starts an expansion. -/
theorem readAhead_backquote (hMode : r.mode = .double) (line : Text) :
    r.readAhead (96 :: line) = none := by
  have hStop : r.step 96 = none := by
    rw [step_double hMode]
    rfl
  rw [readAhead, stepAhead, if_neg (by simp), hStop]
  rfl

end reading

section runes

/-- The digits of an escape are mild, so that they are passed over unchanged. -/
theorem isMild_hexFixed {width n : Nat} {b : UInt8} (h : b ∈ Text.hexFixed width n) :
    isMild b = true := by
  have hDigit : ∀ d < 16, isMild (Text.hexDigit d) = true := by decide
  induction width generalizing n with
  | zero => cases h
  | succ width ih =>
      rcases List.mem_append.mp h with hMore | hLast
      · exact ih hMore
      · rw [List.mem_singleton.mp hLast]
        exact hDigit _ (Nat.mod_lt n (by decide))

/-- An escape by a number is a backslash, a letter and digits. -/
theorem numericEscape_eq (code : Nat) :
    ∃ letter digits, numericEscape code = 92 :: letter :: digits ∧ isMild letter = true ∧
      letter ≠ 10 ∧ ∀ b ∈ digits, isMild b = true := by
  rw [numericEscape]
  split
  · exact ⟨120, _, rfl, by decide, by decide, fun b hb => isMild_hexFixed hb⟩
  split
  · exact ⟨117, _, rfl, by decide, by decide, fun b hb => isMild_hexFixed hb⟩
  · exact ⟨85, _, rfl, by decide, by decide, fun b hb => isMild_hexFixed hb⟩

/-- So are the letters of the escapes for control characters. -/
theorem controlLetter_mild {code : Nat} {letter : UInt8} (h : controlLetter? code = some letter) :
    isMild letter = true ∧ letter ≠ 10 := by
  rw [controlLetter?.eq_def] at h
  split at h <;> first | (cases h; decide) | cases h

/-- Bytes with which an expansion has nothing to do. -/
def isInert (b : UInt8) : Bool := b != 36 && b != 96 && !startsExpansion b

/-- The ASCII bytes that expansions are made of are printable. -/
theorem isInert_of_not_printable {c : Char} (h : isPrintable c.toNat = false) :
    ∀ b ∈ String.utf8EncodeChar c, isInert b = true := by
  have hAll : ∀ n < 256, isInert (UInt8.ofNat n) = false → n < 128 ∧ isPrintable n = true := by
    decide +kernel
  intro b hb
  refine Bool.of_not_eq_false fun hActive => ?_
  obtain ⟨hSmall, hPrintable⟩ := hAll b.toNat b.toNat_lt (by rwa [UInt8.ofNat_toNat])
  have hAscii : b < 0x80 := UInt8.lt_iff_toNat_lt.mpr hSmall
  rw [eq_ofNat_of_mem_encode hAscii hb,
    toNat_ofNat_of_isValidChar (Or.inl (Nat.lt_trans hSmall (by decide)))] at h
  rw [h] at hPrintable
  cases hPrintable

/-- How a rune stands between double quotes: after a backslash that is taken off again, as an escape
that is not undone, or as it is. -/
theorem quoted_cases (rune : Rune) (hInvalid : ∀ b, rune = .invalid b → 0x80 ≤ b) :
    (∃ b, (b = 34 ∨ b = 92) ∧ rune.quoted = [92, b] ∧ rune.shown = [b] ∧ rune.bytes = [b]) ∨
      (∃ letter digits, rune.quoted = 92 :: letter :: digits ∧ rune.shown = rune.quoted ∧
        isMild letter = true ∧ letter ≠ 10 ∧ (∀ b ∈ digits, isMild b = true) ∧
        ∀ b ∈ rune.bytes, isInert b = true) ∨
      ∃ c, rune = .char c ∧ rune.quoted = String.utf8EncodeChar c ∧ rune.shown = rune.quoted ∧
        c ≠ '"' ∧ c ≠ '\\' ∧ isPrintable c.toNat = true := by
  cases rune with
  | invalid b =>
      refine Or.inr (Or.inl ⟨120, _, rfl, if_neg (by simp), by decide, by decide,
        fun d hd => isMild_hexFixed hd, fun d hd => ?_⟩)
      obtain rfl := List.mem_singleton.mp hd
      have hAll : ∀ n < 256, 128 ≤ n → isInert (UInt8.ofNat n) = true := by decide +kernel
      have hLarge := UInt8.le_iff_toNat_le.mp (hInvalid d rfl)
      simpa using hAll d.toNat d.toNat_lt hLarge
  | char c =>
      by_cases hQuote : c = '"'
      · subst hQuote
        exact Or.inl ⟨34, by simp, rfl, rfl, rfl⟩
      by_cases hBackslash : c = '\\'
      · subst hBackslash
        exact Or.inl ⟨92, by simp, rfl, rfl, rfl⟩
      have hShown : (Rune.char c).shown = (Rune.char c).quoted := by
        rw [Rune.shown, if_neg (by simp [hQuote, hBackslash])]
      by_cases hPrintable : isPrintable c.toNat = true
      · refine Or.inr (Or.inr ⟨c, rfl, ?_, hShown, hQuote, hBackslash, hPrintable⟩)
        rw [Rune.quoted, if_neg hQuote, if_neg hBackslash, if_pos hPrintable]
      · have hInert := isInert_of_not_printable (Bool.eq_false_iff.mpr hPrintable)
        refine Or.inr (Or.inl ?_)
        rw [hShown, Rune.quoted, if_neg hQuote, if_neg hBackslash, if_neg hPrintable]
        split
        · rename_i letter hLetter
          obtain ⟨hMild, hNewline⟩ := controlLetter_mild hLetter
          exact ⟨letter, [], rfl, rfl, hMild, hNewline, nofun, hInert⟩
        · obtain ⟨letter, digits, hEscape, hMild, hNewline, hDigits⟩ := numericEscape_eq c.toNat
          exact ⟨letter, digits, hEscape, rfl, hMild, hNewline, hDigits, hInert⟩

/-- A part without a dollar sign or a backquote cannot start an expansion, so that only the rest
counts. -/
theorem expands_append {s t : Text} (h : ∀ b ∈ s, b ≠ 36 ∧ b ≠ 96) :
    expands (s ++ t) = expands t := by
  induction s with
  | nil => rfl
  | cons b s ih =>
      obtain ⟨⟨hDollar, hBack⟩, hMore⟩ := List.forall_mem_cons.mp h
      rw [List.cons_append, expands, ih hMore]
      simp [hDollar, hBack]

theorem ne_of_isInert {b : UInt8} (h : isInert b = true) :
    (b ≠ 36 ∧ b ≠ 96) ∧ startsExpansion b = false := by
  simpa [isInert, and_assoc] using h

/-- The bytes of other printable characters stand for themselves. -/
theorem isMild_of_printable {c : Char} (hPrintable : isPrintable c.toNat = true) (hQuote : c ≠ '"')
    (hDollar : c ≠ '$') (hBackslash : c ≠ '\\') (hBack : c ≠ '\x60') :
    ∀ b ∈ String.utf8EncodeChar c, isMild b = true := by
  intro b hb
  have hChar : ∀ a : UInt8, a < 0x80 → b = a → c = Char.ofNat a.toNat := by
    rintro a ha rfl
    exact eq_ofNat_of_mem_encode ha hb
  refine isMild_iff.mpr ⟨fun h => ?_, fun h => hQuote (hChar 34 (by decide) h),
    fun h => hDollar (hChar 36 (by decide) h), fun h => hBackslash (hChar 92 (by decide) h),
    fun h => hBack (hChar 96 (by decide) h)⟩
  rw [hChar 0 (by decide) h] at hPrintable
  exact absurd hPrintable (by decide +kernel)

/-- Every rune is written in one byte at least. -/
theorem exists_bytes (rune : Rune) : ∃ b bs, rune.bytes = b :: bs := by
  cases rune with
  | invalid b => exact ⟨b, [], rfl⟩
  | char c =>
      obtain ⟨b, bs, hBytes, -⟩ := Rune.first_encoded c []
      exact ⟨b, bs, hBytes⟩

/-- Quoting keeps what follows a dollar sign from starting an expansion, or lets it start one, as it
stands in the text. -/
theorem head_quoted {rs : List Rune} (rest : Text) (hInvalid : ∀ b, .invalid b ∈ rs → 0x80 ≤ b) :
    (rs.flatMap Rune.quoted ++ 34 :: rest).head?.any startsExpansion =
      (rs.flatMap Rune.bytes).head?.any startsExpansion := by
  cases rs with
  | nil => rfl
  | cons rune rs =>
      have hFirst : ∀ b, rune = .invalid b → 0x80 ≤ b := fun b h => hInvalid b (h ▸ List.mem_cons_self)
      rcases quoted_cases rune hFirst with ⟨b, hb, hQuoted, -, hBytes⟩ |
        ⟨letter, digits, hQuoted, -, -, -, -, hInert⟩ | ⟨c, rfl, hQuoted, -⟩
      · rw [List.flatMap_cons, List.flatMap_cons, hQuoted, hBytes]
        rcases hb with rfl | rfl
        · rfl
        · rfl
      · rw [List.flatMap_cons, List.flatMap_cons, hQuoted]
        obtain ⟨b, bs, hBytes⟩ := exists_bytes rune
        rw [hBytes] at hInert ⊢
        exact (ne_of_isInert (hInert b List.mem_cons_self)).2.symm
      · rw [List.flatMap_cons, List.flatMap_cons, hQuoted]
        obtain ⟨b, bs, hBytes⟩ := exists_bytes (.char c)
        rw [Rune.bytes] at hBytes ⊢
        rw [hBytes]
        rfl

/-- What is read of quoted runes up to the closing quote. Reading stops at the first expansion. -/
theorem readAhead_quoted (rs : List Rune) {r : Reader} {w : Text} (rest : Text)
    (hMode : r.mode = .double) (hWord : r.word = some w)
    (hInvalid : ∀ b, .invalid b ∈ rs → 0x80 ≤ b) :
    r.readAhead (rs.flatMap Rune.quoted ++ 34 :: rest) =
      if expands (rs.flatMap Rune.bytes) then none
      else ((r.add (rs.flatMap Rune.shown)).into .bare).readAhead rest := by
  induction rs generalizing r w with
  | nil =>
      have hClose : r.step 34 = some (r.into .bare) := step_double hMode 34
      rw [List.flatMap_nil, List.flatMap_nil, List.flatMap_nil, add_nil hWord, List.nil_append,
        readAhead, stepAhead_of_step _ hClose]
      rfl
  | cons rune rs ih =>
      have hMore : ∀ b, .invalid b ∈ rs → 0x80 ≤ b := fun b h => hInvalid b (List.mem_cons_of_mem _ h)
      have hNext := head_quoted rest hMore
      -- A rune that is read by itself leaves the rest of the runes to be read.
      have hRead : ∀ (_ : rune.quoted.foldlM step r = some (r.add rune.shown))
          (_ : ∀ b ∈ rune.bytes, b ≠ 36 ∧ b ≠ 96),
          r.readAhead ((rune :: rs).flatMap Rune.quoted ++ 34 :: rest) =
            if expands ((rune :: rs).flatMap Rune.bytes) then none
            else ((r.add ((rune :: rs).flatMap Rune.shown)).into .bare).readAhead rest := by
        intro hFold hInert
        rw [List.flatMap_cons, List.flatMap_cons, List.flatMap_cons, List.append_assoc,
          readAhead_of_read _ hFold, expands_append hInert, ← add_add]
        exact ih hMode rfl hMore
      rcases quoted_cases rune fun b h => hInvalid b (h ▸ List.mem_cons_self) with
        ⟨b, hb, hQuoted, hShown, hBytes⟩ |
        ⟨letter, digits, hQuoted, hShown, hLetter, hNewline, hDigits, hInert⟩ |
        ⟨c, rfl, hQuoted, hShown, hNotQuote, hNotBackslash, hPrintable⟩
      · refine hRead ?_ ?_
        · rw [hQuoted, hShown]
          exact read_undone hMode hb
        · rw [hBytes]
          rcases hb with rfl | rfl
          · exact List.forall_mem_singleton.mpr (by decide)
          · exact List.forall_mem_singleton.mpr (by decide)
      · refine hRead ?_ fun b hb => (ne_of_isInert (hInert b hb)).1
        rw [hShown, hQuoted]
        exact read_letter hMode hLetter hNewline hDigits
      · by_cases hBack : c = '\x60'
        · subst hBack
          rw [List.flatMap_cons, List.flatMap_cons, hQuoted]
          exact readAhead_backquote hMode _
        by_cases hDollar : c = '$'
        · subst hDollar
          have hDollar := readAhead_dollar hMode (rs.flatMap Rune.quoted ++ 34 :: rest)
          rw [hNext, ih (r := r.add [36]) hMode rfl hMore, add_add] at hDollar
          rw [List.flatMap_cons, List.flatMap_cons, List.flatMap_cons, hShown, hQuoted]
          refine hDollar.trans ?_
          change _ = if (rs.flatMap Rune.bytes).head?.any startsExpansion ||
            expands (rs.flatMap Rune.bytes) then none else _
          cases (rs.flatMap Rune.bytes).head?.any startsExpansion with
          | true => rfl
          | false => rfl
        · refine hRead ?_ fun b hb => ⟨?_, ?_⟩
          · rw [hShown, hQuoted]
            exact read_mild hMode hWord
              (isMild_of_printable hPrintable hNotQuote hDollar hNotBackslash hBack)
          · rintro rfl
            exact hDollar (eq_ofNat_of_mem_encode (by decide) hb)
          · rintro rfl
            exact hBack (eq_ofNat_of_mem_encode (by decide) hb)

end runes

section lines

variable {t : Text}

/-- A text with a zero byte is never plain. -/
theorem isPlainWord_of_zero (h : 0 ∈ t) : isPlainWord t = false := by
  have hEscape : t.runes.any needsEscape = true := by
    rw [← Text.ofRunes_runes t, Text.ofRunes, List.mem_flatMap] at h
    obtain ⟨rune, hRune, hByte⟩ := h
    refine List.any_eq_true.mpr ⟨rune, hRune, ?_⟩
    cases rune with
    | invalid b => rfl
    | char c =>
        rw [eq_ofNat_of_mem_encode (by decide) hByte]
        decide +kernel
  simp [isPlainWord, hEscape]

/-- A quoted text is read as the word that it shows, unless a part of it is expanded. -/
theorem readAhead_quote (words : List Text) (t rest : Text) :
    readAhead { words } (quote t ++ rest) =
      if showsExpansion t then none
      else readAhead { words, word := some (shown t), isPlain := isPlainWord t } rest := by
  by_cases hZero : 0 ∈ t
  · have hHolds : t.contains 0 = true := by simpa using hZero
    have hFilled : t.isEmpty = false := by
      cases t with
      | nil => cases hZero
      | cons b t => rfl
    have hQuote : quote t = 34 :: (t.runes.flatMap Rune.quoted ++ [34]) := by
      rw [quote, hFilled, hHolds]
      rfl
    have hOpen : ({ words } : Reader).step 34 =
        some { words, word := some [], isPlain := false, mode := .double } := rfl
    rw [hQuote, List.cons_append, List.append_assoc, readAhead, stepAhead_of_step _ hOpen,
      Option.bind_some, showsExpansion, hHolds, Bool.true_and, shown, hHolds, if_pos rfl,
      isPlainWord_of_zero hZero]
    have hBytes : t.runes.flatMap Rune.bytes = t := Text.ofRunes_runes t
    have hRead := readAhead_quoted t.runes
      (r := { words, word := some [], isPlain := false, mode := .double }) rest rfl rfl
      fun _ => Text.le_of_invalid_mem
    rw [hBytes] at hRead
    exact hRead
  · have hHolds : t.contains 0 = false := by simpa using hZero
    rw [readAhead_of_read rest (read_quote words hZero), showsExpansion, hHolds, Bool.false_and,
      if_neg Bool.false_ne_true, shown, hHolds, if_neg Bool.false_ne_true]

/-- What is read after a word that cannot be taken for a reserved one. -/
theorem readAhead_rest (rest : List Text) {r : Reader} {w : Text} (hMode : r.mode = .bare)
    (hWord : r.word = some w) (hEnd : r.endWord = some { words := r.words ++ [w] }) :
    (r.readAhead ((rest.map quote).flatMap (32 :: ·))).bind finish =
      if rest.any showsExpansion then none else some (r.words ++ w :: rest.map shown) := by
  induction rest generalizing r w with
  | nil =>
      change r.finish = _
      rw [finish, if_pos hMode, hEnd]
      rfl
  | cons t rest ih =>
      have hBlank : r.step 32 = some { words := r.words ++ [w] } := by
        rw [step, hMode]
        exact hEnd
      rw [List.map_cons, List.flatMap_cons, List.cons_append, readAhead, stepAhead_of_step _ hBlank,
        Option.bind_some, readAhead_quote, List.any_cons]
      cases hShows : showsExpansion t with
      | true => rfl
      | false =>
          have hNext : endWord ⟨r.words ++ [w], some (shown t), isPlainWord t, .bare⟩ =
              some { words := r.words ++ [w] ++ [shown t] } := by
            simp [endWord]
          simpa using ih rfl rfl hNext

end lines

end Shell

namespace Command

open Shell

/-- What a shell makes of the line of any command, zero bytes included. The line is one literal word
for each word of the command, and nothing in it is expanded, unless the tool is called `elif` or a
word with a zero byte, which is only shown, holds what starts an expansion between double quotes.
Then it is not read as literal words at all. -/
theorem literalWords?_line (c : Command) :
    literalWords? c.line =
      if c.tool = "elif" ∨ c.argv.any showsExpansion = true then none
      else some (c.argv.map shown) := by
  have hEnd : ({ words := [], word := some (shown c.tool), isPlain := isPlainWord c.tool } :
      Reader).endWord = if c.tool = "elif" then none else some { words := [shown c.tool] } := by
    by_cases hZero : 0 ∈ c.tool
    · have hOther : c.tool ≠ "elif" := by
        intro hSame
        rw [hSame] at hZero
        revert hZero
        decide
      rw [if_neg hOther, isPlainWord_of_zero hZero]
      rfl
    · have hShown : shown c.tool = c.tool := by
        rw [shown, if_neg (by simpa using hZero)]
      simp only [← isPlainWord_reserved_iff, hShown]
      simp [Reader.endWord]
  rw [literalWords?, line, argv, List.map_cons, join_cons, readAhead_quote, List.any_cons]
  cases hShows : showsExpansion c.tool with
  | true => simp
  | false =>
      by_cases hReserved : c.tool = "elif"
      · rw [if_pos hReserved] at hEnd
        have hBlank : ({ word := some (shown c.tool), isPlain := isPlainWord c.tool } :
          Reader).step 32 = none := hEnd
        rw [if_pos (Or.inl hReserved), if_neg Bool.false_ne_true]
        change ((Reader.stepAhead _ 32 _).bind _).bind _ = _
        rw [Reader.stepAhead, if_neg (by simp), hBlank]
        rfl
      · rw [if_neg hReserved] at hEnd
        have hRest := readAhead_rest (c.input :: c.args.getD []) rfl rfl hEnd
        simpa [hReserved] using hRest

/-- A word that is only shown may hold a substitution, which is carried out. -/
theorem not_literalWords?_line_substitution :
    ¬ ∀ c : Command, ∃ words, literalWords? c.line = some words ∧ words.length = c.argv.length := by
  intro h
  have hNone : literalWords? (Command.line ⟨"t", "$(id)\x00", [], [], none⟩) = none := by
    decide +kernel
  obtain ⟨words, hRead, -⟩ := h ⟨"t", "$(id)\x00", [], [], none⟩
  rw [hNone] at hRead
  cases hRead

end Command

end Runsheet
