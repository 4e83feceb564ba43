import Runsheet.Proofs.Script.Blame
import Runsheet.Proofs.Token.Line

/-! The line that a syntax error shows. The scanner counts lines and columns in characters as it
goes on; the excerpt cuts the source into lines anew and compares the column with the bytes that it
shows of the line. Both find the same line, and the caret is missing in one case only. -/
namespace Runsheet

/-- The line below an excerpt: a margin, as many blanks as there are columns before the caret, the
caret and the label. -/
def caretLine (blanks : Nat) (label : Text) : Text :=
  "   | " ++ Text.fill blanks 32 ++ "^" ++ Text.onlyIf (!label.isEmpty) (" " ++ label)

namespace SyntaxError

def shownLine (e : SyntaxError) (source : Text) : Text :=
  (source.lineAround e.offset.toNat).dropEnd 13

/-- The script breaks off behind what is shown of its last line: carriage returns that end the line
are left out, and what is shown has fewer bytes than the whole line has characters. -/
def BehindLine (e : SyntaxError) (source : Text) : Prop :=
  e.got = .eof ∧ (e.shownLine source).length < (source.lineAround e.offset.toNat).runes.length

instance (e : SyntaxError) (source : Text) : Decidable (e.BehindLine source) :=
  inferInstanceAs (Decidable (_ ∧ _))

end SyntaxError

section caret

variable {shown blanks : Nat} {label : Text}

/-- A caret is drawn when its column lies on the line or right behind it, below the first byte of
the token. -/
theorem caret_of_le (h : blanks ≤ shown) :
    "   | " ++ caret shown (blanks + 1) label = caretLine blanks label := by
  have hColumn : (0 : Int) < blanks + 1 ∧ (blanks : Int) + 1 ≤ shown + 1 := by omega
  simp [caret, caretLine, Text.onlyIf, hColumn]

/-- Behind the end of the line, as it is shown, no caret is drawn. -/
theorem caret_of_lt (h : shown < blanks) : caret shown (blanks + 1) label = [] := by
  have hColumn : ¬ ((0 : Int) < blanks + 1 ∧ (blanks : Int) + 1 ≤ shown + 1) := by omega
  rw [caret, decide_eq_false hColumn]
  rfl

/-- The caret line is one line. -/
theorem not_mem_caretLine (h : 10 ∉ label) (blanks : Nat) : 10 ∉ caretLine blanks label := by
  have hMargin : (10 : UInt8) ∉ Text.ofString "   | " := by decide
  have hCaret : (10 : UInt8) ∉ Text.ofString "^" := by decide
  have hBlank : (10 : UInt8) ∉ Text.ofString " " := by decide
  have hLabel : 10 ∉ Text.onlyIf (!label.isEmpty) (" " ++ label) := by
    rw [Text.onlyIf]
    split
    · simp [h, hBlank]
    · simp
  simp [caretLine, Text.fill, hMargin, hCaret, hLabel]

end caret

/-- An excerpt with the given line of the source and the given line below it. -/
def excerptWith (pos : Pos) (shown below : Text) : Text :=
  "  --> " ++ Text.decimalInt pos.line ++ ":" ++ Text.decimalInt pos.column ++ "\n   |\n" ++
    Text.padLeft 2 32 (Text.decimalInt pos.line) ++ " | " ++ shown ++ "\n" ++ below ++ "\n"

/-- An excerpt always shows something: the line itself, be it empty. -/
theorem excerptWith_ne_nil (pos : Pos) (shown below : Text) : excerptWith pos shown below ≠ [] := by
  simp [excerptWith, Text.ofString]

/-- What stands below the source line is the last line. -/
theorem currentLine_excerptWith {below : Text} (h : 10 ∉ below) (pos : Pos) (shown : Text) :
    Text.currentLine (excerptWith pos shown below).dropLast = below := by
  have hNewline : Text.ofString "\n" = [10] := rfl
  rw [excerptWith, hNewline, List.dropLast_concat, List.append_assoc, List.singleton_append,
    Text.currentLine_append h]

namespace SyntaxError

variable {source label : Text} {e : SyntaxError} {t : Token}

/-- The line below the source line of an error: with a caret, but for an error behind the line. -/
def belowLine (e : SyntaxError) (source : Text) (blanks : Nat) (label : Text) : Text :=
  if e.BehindLine source then "   | " else caretLine blanks label

/-- The offset that an error tells is where its token starts. -/
theorem About.offset_eq (h : e.About t) : e.offset.toNat = t.position.offset := by
  rw [h.offset, Int.toNat_natCast]

/-- The caret of an error about a token of the source, unless the token is behind the line. -/
theorem About.belowLine_eq (h : e.About t) (ht : t ∈ (Tokens.ofSource source).toList)
    (label : Text) :
    "   | " ++ caret (e.shownLine source).length t.position.column label =
      e.belowLine source (t.position.column - 1) label := by
  have hFar : (e.shownLine source).length + 1 < t.position.column ↔ e.BehindLine source := by
    have hBehind := Tokens.lt_column_iff ht
    rwa [← h.offset_eq, ← h.got] at hBehind
  obtain ⟨blanks, hBlanks⟩ : ∃ blanks, t.position.column = blanks + 1 :=
    ⟨_, (Tokens.column_of_mem ht).trans (Nat.add_comm 1 _)⟩
  rw [hBlanks] at hFar ⊢
  rw [belowLine]
  split
  · rename_i hBehind
    have hLength := hFar.mpr hBehind
    rw [Int.natCast_succ, caret_of_lt (by omega), List.append_nil]
  · rename_i hInside
    have hLength := mt hFar.mp hInside
    exact caret_of_le (by omega)

/-- The excerpt for an error about a token of the source. -/
theorem About.excerpt_eq (h : e.About t) (ht : t ∈ (Tokens.ofSource source).toList)
    (hSource : source ≠ []) (label : Text) :
    excerpt source e.pos.line e.pos.column label =
      excerptWith e.pos (e.shownLine source) (e.belowLine source (t.position.column - 1) label) := by
  have hLine := Tokens.line_of_mem ht
  have hPos : e.pos = ⟨t.position.line, t.position.column⟩ := h.pos
  have hFound : (source.splitAt 10)[(t.position.line : Int).toNat - 1]? =
      some (source.lineAround e.offset.toNat) := by
    rw [h.offset_eq, ← Text.getElem?_splitAt, hLine, Int.toNat_natCast, Nat.add_sub_cancel_left]
  have hValid : ¬ (source.isEmpty = true ∨ (t.position.line : Int) ≤ 0) := by
    simp [hSource, hLine]
    omega
  have hSplit : Text.ofString "\n   | " = Text.ofString "\n" ++ Text.ofString "   | " := rfl
  rw [hPos, excerpt, if_neg hValid, hFound]
  dsimp only
  rw [← shownLine, excerptWith, ← h.belowLine_eq ht, hSplit]
  simp only [List.append_assoc]

theorem belowLine_line (h : 10 ∉ label) (e : SyntaxError) (source : Text) (blanks : Nat) :
    10 ∉ e.belowLine source blanks label := by
  rw [belowLine]
  split
  · decide
  · exact not_mem_caretLine h blanks

end SyntaxError

namespace Parse

variable {source : Text} {e : SyntaxError}

/-- Only an empty script has no line to show, and that one is read to its end. -/
theorem ne_nil_of_failure {failure : ParseFailure} (h : (ofSource source).failure = some failure) :
    source ≠ [] := by
  rintro rfl
  have hEmpty : (ofSource []).failure = none := by decide +kernel
  rw [hEmpty] at h
  cases h

/-- Every syntax error has an excerpt that shows the line of the source around it. Below that line a
caret stands under the column of the error, unless the script breaks off behind what is shown of the
line: then nothing stands there. -/
theorem excerpt_of_drive {σ ε : Type} {act : σ → Emission → σ × Option ε}
    (hAct : ∀ s e, (act s e).2 = none) (s : σ)
    (h : ((Tokens.ofSource source).drive act s).2 = some (.unreadable (.syntaxError e))) (label : Text) :
    ∃ blanks : Nat, e.pos.column = blanks + 1 ∧
      excerpt source e.pos.line e.pos.column label ≠ [] ∧
      excerpt source e.pos.line e.pos.column label =
        excerptWith e.pos (e.shownLine source) (e.belowLine source blanks label) ∧
      (10 ∉ label → Text.currentLine (excerpt source e.pos.line e.pos.column label).dropLast =
        e.belowLine source blanks label) := by
  have hFailure := failure_of_drive hAct h
  obtain ⟨read, blamed, -, -, hBody, hAbout, -⟩ := exists_completed hFailure
  have hMem : blamed.headD (Tokens.ofSource source).eof ∈ (Tokens.ofSource source).toList := by
    rw [Tokens.toList, hBody, List.append_assoc]
    cases blamed <;> simp
  generalize blamed.headD (Tokens.ofSource source).eof = t at hAbout hMem
  have hExcerpt := hAbout.excerpt_eq hMem (ne_nil_of_failure hFailure) label
  refine ⟨t.position.column - 1, ?_, ?_, hExcerpt, fun hLabel => ?_⟩
  · have hColumn := Tokens.column_of_mem hMem
    rw [hAbout.pos, Token.pos]
    dsimp only
    omega
  · rw [hExcerpt]
    exact excerptWith_ne_nil _ _ _
  · rw [hExcerpt]
    exact currentLine_excerptWith (SyntaxError.belowLine_line hLabel e source _) _ _

/-- Two lines that end with a return and a newline; the semicolon of the second one is missing. -/
def accentedLine : Text := "tool: t;\r\ninput: 'é' x\r\n"

/-- The name comes where the semicolon should be, after a character of two bytes. -/
def accentedLineError : SyntaxError :=
  { pos := ⟨2, 12⟩, offset := 22, text := "missing ';'", context := "input statement"
    expected := [.semicolon], got := .name, gotText := "x"
    suggestion := "end the statement with ';'", sample := "input: \"my piece.xml\";" }

/-- Columns count code points, so that the accented letter takes up one blank before the caret
though it is written in two bytes. -/
theorem excerpt_of_drive_accentedLine :
    (∀ s e, (Recording.receive none s e).2 = none) ∧
      ((Tokens.ofSource accentedLine).drive (Recording.receive none) {}).2 =
        some (.unreadable (.syntaxError accentedLineError)) ∧
      (10 : UInt8) ∉ Text.ofString "here" ∧
      Text.currentLine (excerpt accentedLine 2 12 "here").dropLast = caretLine 11 "here" := by
  have hFailure : (ofSource accentedLine).failure = some (.syntaxError accentedLineError) := by
    decide +kernel
  have hDrive : ((Tokens.ofSource accentedLine).drive (Recording.receive none) {}).2 =
      some (.unreadable (.syntaxError accentedLineError)) := by
    rw [drive_recording, hFailure]
    rfl
  have hLabel : (10 : UInt8) ∉ Text.ofString "here" := by decide
  have hInside : ¬ accentedLineError.BehindLine accentedLine := by decide +kernel
  obtain ⟨blanks, hColumn, -, -, hLast⟩ := excerpt_of_drive receive_never {} hDrive "here"
  have hBlanks : blanks = 11 := by
    have hTwelve : (12 : Int) = blanks + 1 := hColumn
    omega
  have hCaret := hLast hLabel
  rw [SyntaxError.belowLine, if_neg hInside, hBlanks] at hCaret
  exact ⟨receive_never, hDrive, hLabel, hCaret⟩

/-- A statement without its semicolon, and a return at the end. -/
def brokenLine : Text := "tool: x\r"

/-- The error is about the end of the script, one column behind the return. -/
def brokenLineError : SyntaxError :=
  { pos := ⟨1, 9⟩, offset := 8, text := "missing ';'", context := "tool statement"
    expected := [.semicolon], got := .eof
    suggestion := "end the statement with ';'", sample := "tool: xml2ly;" }

/-- The return is not shown, and no caret is either. -/
theorem not_caret_excerpt_brokenLine :
    ((Tokens.ofSource brokenLine).drive (Recording.receive none) {}).2 =
        some (.unreadable (.syntaxError brokenLineError)) ∧
      excerpt brokenLine brokenLineError.pos.line brokenLineError.pos.column "here" =
        "  --> 1:9\n   |\n 1 | tool: x\n   | \n" ∧
      Text.currentLine (excerpt brokenLine brokenLineError.pos.line brokenLineError.pos.column
        "here").dropLast ≠ caretLine 8 "here" := by
  have hFailure : (ofSource brokenLine).failure = some (.syntaxError brokenLineError) := by
    decide +kernel
  refine ⟨?_, by decide +kernel, by decide +kernel⟩
  rw [drive_recording, hFailure]
  rfl

end Parse

end Runsheet
