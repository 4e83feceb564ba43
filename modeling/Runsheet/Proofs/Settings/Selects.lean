import Mathlib.Data.List.Forall2
import Runsheet.Proofs.Selection.Directive
import Runsheet.Proofs.Token.Line
import Runsheet.Request
import Runsheet.Settings

/-! The selects of the settings. The check of a settings file asks for two parts with one colon between
them, and a directive is read at its first colon with white space dropped around the parts. The two agree
on every text but those with a part that is white space throughout. -/
namespace Runsheet

namespace Text

variable {b : UInt8} {s t : Text}

/-- A text without the byte is a single part. -/
theorem splitAt_of_not_mem (h : b ∉ t) : splitAt b t = [t] := by
  induction t with
  | nil => rfl
  | cons c t ih =>
      rw [List.mem_cons, not_or] at h
      rw [splitAt, if_neg (Ne.symm h.1), ih h.2]

end Text

namespace Settings

open Yaml

variable {s t : Text}

section pattern

theorem isSelect_of_not_mem (h : 58 ∉ t) : isSelect t = false := by
  rw [isSelect, Text.splitAt_of_not_mem h]

/-- A text is a directive in form when the first of its colons is the last one, with something on
either side. -/
theorem isSelect_append (h : 58 ∉ s) :
    isSelect (s ++ 58 :: t) = true ↔ s ≠ [] ∧ t ≠ [] ∧ 58 ∉ t := by
  by_cases ht : 58 ∈ t
  · obtain ⟨before, after, rfl, hBefore⟩ := List.eq_append_cons_of_mem ht
    -- A second colon makes a third part.
    obtain ⟨part, parts, hParts⟩ := List.exists_cons_of_ne_nil (Text.splitAt_ne_nil 58 after)
    rw [isSelect, Text.splitAt_append_cons, Text.splitAt_append_cons, Text.splitAt_of_not_mem h,
      Text.splitAt_of_not_mem hBefore, hParts]
    simp
  · rw [isSelect, Text.splitAt_append_cons, Text.splitAt_of_not_mem h, Text.splitAt_of_not_mem ht]
    simp [ht]

/-- The texts that the check asks for. -/
theorem isSelect_iff : isSelect t = true ↔ ∃ choice label, t = choice ++ 58 :: label ∧
    58 ∉ choice ∧ choice ≠ [] ∧ label ≠ [] ∧ 58 ∉ label := by
  constructor
  · intro h
    by_cases ht : 58 ∈ t
    · obtain ⟨choice, label, rfl, hChoice⟩ := List.eq_append_cons_of_mem ht
      exact ⟨choice, label, rfl, hChoice, (isSelect_append hChoice).mp h⟩
    · rw [isSelect_of_not_mem ht] at h
      cases h
  · rintro ⟨choice, label, rfl, hChoice, hRest⟩
    exact (isSelect_append hChoice).mpr hRest

/-- There is exactly one colon in it, so that it can be divided in one way only. -/
theorem count_of_isSelect (h : isSelect t = true) : t.count 58 = 1 := by
  obtain ⟨choice, label, rfl, hChoice, -, -, hLabel⟩ := isSelect_iff.mp h
  rw [List.count_append, List.count_cons_self, List.count_eq_zero.mpr hChoice,
    List.count_eq_zero.mpr hLabel]

end pattern

section data

/-- Replacing stray bytes works on each side of a colon by itself, since a colon never belongs to a
longer sequence. -/
theorem repaired_append (s t : Text) :
    Value.repaired (s ++ 58 :: t) = Value.repaired s ++ 58 :: Value.repaired t := by
  have hColon : String.utf8EncodeChar (Char.ofNat (58 : UInt8).toNat) = [58] := by decide
  rw [Value.repaired, Text.runes_append_ascii (by decide), List.flatMap_append, List.flatMap_cons]
  dsimp only
  rw [hColon]
  rfl

theorem repaired_ne_nil (h : Value.repaired t ≠ []) : t ≠ [] := by
  rintro rfl
  exact h rfl

/-- A repair puts in no colon and takes none out. -/
theorem mem_repaired_iff : 58 ∈ Value.repaired t ↔ 58 ∈ t := by
  constructor
  · intro h
    obtain ⟨r, hr, hByte⟩ := List.mem_flatMap.mp h
    cases r with
    | invalid b =>
        have hReplacement : (58 : UInt8) ∉ String.utf8EncodeChar (Char.ofNat 0xfffd) := by decide
        exact absurd hByte hReplacement
    | char c =>
        rw [← Text.ofRunes_runes t]
        exact List.mem_flatMap.mpr ⟨.char c, hr, hByte⟩
  · intro h
    obtain ⟨before, after, rfl, -⟩ := List.eq_append_cons_of_mem h
    simp [repaired_append]

/-- The check looks at the repaired text; what passes there has the form itself. -/
theorem isSelect_of_repaired (h : isSelect (Value.repaired t) = true) : isSelect t = true := by
  by_cases ht : 58 ∈ t
  · obtain ⟨choice, label, rfl, hChoice⟩ := List.eq_append_cons_of_mem ht
    rw [repaired_append, isSelect_append (mt mem_repaired_iff.mp hChoice), mem_repaired_iff] at h
    obtain ⟨hFirst, hSecond, hColon⟩ := h
    exact (isSelect_append hChoice).mpr ⟨repaired_ne_nil hFirst, repaired_ne_nil hSecond, hColon⟩
  · rw [isSelect_of_not_mem (mt mem_repaired_iff.mp ht)] at h
    cases h

/-- The text of a point in time has two colons at least. -/
theorem not_isSelect_of_timestamp {time : Timestamp} (h : time.text? = some t) :
    isSelect t ≠ true := by
  intro hSelect
  have hOne := count_of_isSelect hSelect
  have hColon : (":" : Text).count 58 = 1 := by decide
  rw [Timestamp.text?] at h
  split at h
  · rw [← Option.some.inj h] at hOne
    simp only [List.count_append, hColon] at hOne
    omega
  · cases h

/-- What passes for a select in a data file was written as one. -/
theorem isSelect_of_dataText {v : Value} {written : Text} (hData : v.dataText? = some t)
    (hSelect : isSelect t = true) (hWritten : v.spelling? = some written) :
    isSelect written = true := by
  cases v with
  | text u =>
      cases hData
      cases hWritten
      exact isSelect_of_repaired hSelect
  | timestamp time u => exact absurd hSelect (not_isSelect_of_timestamp hData)
  | _ => cases hWritten

end data

section check

variable {v : Value} {items : List Value} {entries : List (Key × Value)} {place : List Text}
  {rule : TextRule}

/-- The value is a text that the check asks for. -/
def HoldsSelect (v : Value) : Prop := ∃ t, v.dataText? = some t ∧ isSelect t = true

/-- A value passes the check or is told of with one mistake at its place. -/
theorem checkText_select (place : List Text) (v : Value) :
    (HoldsSelect v ∧ checkText .select place v = []) ∨
      (¬ HoldsSelect v ∧ ∃ what, checkText .select place v = [mistake place what]) := by
  rw [checkText, HoldsSelect]
  cases hData : v.dataText? with
  | none => exact Or.inr ⟨by simp, _, rfl⟩
  | some t =>
      by_cases hSelect : isSelect t = true
      · exact Or.inl ⟨⟨t, rfl, hSelect⟩, by simp [TextRule.mistake?, hSelect]⟩
      · refine Or.inr ⟨by simpa using hSelect, "does not match pattern '^[^:]+:[^:]+$'", ?_⟩
        simp [TextRule.mistake?, hSelect]

/-- The mistakes of an item are among those of the list, with its number. -/
theorem checkText_subset_checkItems {n i : Nat} (h : items[i]? = some v) :
    checkText rule (place ++ [Text.decimal (n + i)]) v ⊆ checkItems rule place n items := by
  induction items generalizing n i with
  | nil => cases h
  | cons first rest ih =>
      rw [checkItems]
      cases i with
      | zero =>
          cases h
          exact List.subset_append_left _ _
      | succ i =>
          have hRest := ih (n := n + 1) h
          rw [Nat.add_right_comm, Nat.add_assoc] at hRest
          exact List.Subset.trans hRest (List.subset_append_right _ _)

/-- The mistakes of the selects are among those of the document. -/
theorem check_selects_subset (h : valueOf? entries "selects" = some v) :
    (Rule.texts .select false).check ["selects"] v ⊆ check (.mapping entries) := by
  intro m hm
  apply List.mem_append_left
  refine List.mem_flatMap.mpr ⟨("selects", .texts .select false), by simp [rules], ?_⟩
  dsimp only
  rw [h]
  exact hm

/-- An item that is no select is reported with its place. -/
theorem mistake_of_item {i : Nat} (hItems : valueOf? entries "selects" = some (.sequence items))
    (hItem : items[i]? = some v) (hNot : ¬ HoldsSelect v) :
    ∃ what, mistake ["selects", Text.decimal i] what ∈ check (.mapping entries) := by
  rcases checkText_select ["selects", Text.decimal i] v with ⟨hHolds, -⟩ | ⟨-, what, hMistake⟩
  · exact absurd hHolds hNot
  · have hAmong : mistake ["selects", Text.decimal i] what ∈
        checkItems .select ["selects"] 0 items := by
      apply checkText_subset_checkItems hItem
      rw [Nat.zero_add, List.singleton_append, hMistake]
      exact List.mem_cons_self
    exact ⟨what, check_selects_subset hItems hAmong⟩

/-- If the document as a whole has no mistakes, every item of the list has passed the check. -/
theorem holdsSelect_of_check (hCheck : check (.mapping entries) = [])
    (hItems : valueOf? entries "selects" = some (.sequence items)) :
    ∀ v ∈ items, HoldsSelect v := by
  intro v hv
  obtain ⟨i, hi⟩ := List.getElem?_of_mem hv
  by_contra hNot
  obtain ⟨what, hMistake⟩ := mistake_of_item hItems hi hNot
  rw [hCheck] at hMistake
  cases hMistake

/-- The selects of checked entries match the pattern. -/
theorem isSelect_of_check (hCheck : check (.mapping entries) = []) :
    ∀ t ∈ (ofEntries entries).selects, isSelect t = true := by
  intro t ht
  have hTexts : t ∈ textsEntry entries "selects" [] := ht
  rw [textsEntry] at hTexts
  split at hTexts
  · rename_i items hItems
    obtain ⟨v, hv, hSpelling⟩ := List.mem_filterMap.mp hTexts
    obtain ⟨u, hData, hSelect⟩ := holdsSelect_of_check hCheck hItems v hv
    exact isSelect_of_dataText hData hSelect hSpelling
  · cases hTexts

/-- Settings are made of a mapping exactly when the check found nothing. -/
theorem ofMapping_eq_ok {node : Node} {running : Text} {settings : Settings}
    (h : ofMapping node entries running = .ok settings) :
    check (.mapping entries) = [] ∧ settings = ofEntries entries := by
  have hVersion : (if isTooOld (ofEntries entries).minVersion running = true then
        .error (.tooOld (ofEntries entries).minVersion running) else .ok (ofEntries entries)) =
      (.ok settings : Except SettingsError Settings) → settings = ofEntries entries := by
    intro h
    split at h
    · cases h
    · exact (Except.ok.inj h).symm
  rw [ofMapping.eq_def] at h
  dsimp only at h
  split at h
  · cases h
  · rename_i hCheck
    refine ⟨by simpa using hCheck, ?_⟩
    split at h
    · split at h
      · cases h
      · exact hVersion h
    · exact hVersion h

/-- Settings that are accepted have selects that match the pattern. -/
theorem isSelect_of_parse {source running : Text} {settings : Settings}
    (h : parse source running = .ok settings) : ∀ t ∈ settings.selects, isSelect t = true := by
  have hStandard : ∀ t ∈ ({} : Settings).selects, isSelect t = true := nofun
  rw [parse] at h
  split at h
  · cases h
  · cases h
    exact hStandard
  · split at h
    · cases h
    · cases h
      exact hStandard
    · split at h
      · cases h
      · split at h
        · obtain ⟨hCheck, rfl⟩ := ofMapping_eq_ok h
          exact isSelect_of_check hCheck
        · cases h

/-- The items under `selects` in a settings file that can be read. -/
def selectItems (source : Text) : List Value :=
  match (firstDocument source).join.bind Node.value with
  | some (.mapping entries) =>
    match valueOf? entries "selects" with
    | some (.sequence items) => if (Value.mapping entries).isRepresentable then items else []
    | _ => []
  | _ => []

theorem exists_of_mem_selectItems {source : Text} (h : v ∈ selectItems source) :
    ∃ node entries, firstDocument source = some (some node) ∧ node.value = some (.mapping entries) ∧
      valueOf? entries "selects" = some (.sequence (selectItems source)) ∧
      (Value.mapping entries).isRepresentable = true := by
  generalize hItems : selectItems source = items at h ⊢
  rw [selectItems] at hItems
  split at hItems
  · rename_i entries hEntries
    obtain ⟨node, hNode, hValue⟩ := Option.bind_eq_some_iff.mp hEntries
    split at hItems
    · rename_i found hFound
      split at hItems
      · rename_i hData
        subst hItems
        exact ⟨node, entries, Option.join_eq_some_iff.mp hNode, hValue, hFound, hData⟩
      · rw [← hItems] at h
        cases h
    · rw [← hItems] at h
      cases h
  · rw [← hItems] at h
    cases h

/-- An item that fails the check is reported under its number in the list, and the settings are
refused. -/
theorem parse_eq_invalid {source running : Text} {i : Nat} (hItem : (selectItems source)[i]? = some v)
    (hNot : ¬ HoldsSelect v) :
    ∃ messages what, parse source running = .error (.invalid messages) ∧
      mistake ["selects", Text.decimal i] what ∈ messages := by
  obtain ⟨node, entries, hNode, hValue, hItems, hData⟩ :=
    exists_of_mem_selectItems (List.mem_of_getElem? hItem)
  obtain ⟨what, hMistake⟩ := mistake_of_item hItems hItem hNot
  refine ⟨check (.mapping entries), what, ?_, hMistake⟩
  have hSome : (!(check (.mapping entries)).isEmpty) = true := by
    simpa using List.ne_nil_of_mem hMistake
  have hRefused : ofMapping node entries running = .error (.invalid (check (.mapping entries))) := by
    rw [ofMapping.eq_def]
    dsimp only
    rw [if_pos hSome]
  rw [parse, hNode]
  dsimp only
  rw [hValue]
  dsimp only
  rw [hData]
  exact hRefused

end check

end Settings

namespace Directive

variable {complain : Text → Complaint} {t choice label : Text} {ts before after : List Text}

/-- One of the two parts is white space throughout. -/
def HasBlankPart (t : Text) : Prop :=
  ∃ choice label : Text, t = choice ++ 58 :: label ∧ 58 ∉ choice ∧
    (choice.IsBlank ∨ label.IsBlank)

/-- The text is a choice and a label with a colon between them, up to white space around them. -/
def IsSpeltBy (t : Text) (d : Directive) : Prop :=
  ∃ choice label : Text, t = choice ++ 58 :: label ∧ 58 ∉ choice ∧ 58 ∉ label ∧
    d = ⟨choice.trim, label.trim⟩

/-- One part is blank when what stands before or after the only colon is. -/
theorem hasBlankPart_append (h : 58 ∉ choice) :
    HasBlankPart (choice ++ 58 :: label) ↔ choice.IsBlank ∨ label.IsBlank := by
  constructor
  · rintro ⟨choice', label', hSame, hChoice, hBlank⟩
    have hCut := Text.cut_append_cons h label
    rw [hSame, Text.cut_append_cons hChoice] at hCut
    cases hCut
    exact hBlank
  · exact fun hBlank => ⟨choice, label, rfl, h, hBlank⟩

/-- A text that matches the pattern is a directive unless one of its parts is white space. -/
theorem parse_of_isSelect (h : Settings.isSelect t = true) :
    HasBlankPart t ∧ parse t = .error (malformed t) ∨
      ¬ HasBlankPart t ∧ ∃ d, parse t = .ok d ∧ IsSpeltBy t d := by
  obtain ⟨choice, label, rfl, hChoice, -, -, hLabel⟩ := Settings.isSelect_iff.mp h
  rw [hasBlankPart_append hChoice]
  by_cases hBlank : Text.IsBlank choice ∨ Text.IsBlank label
  · exact Or.inl ⟨hBlank, parse_of_isBlank hChoice hBlank⟩
  · exact Or.inr ⟨hBlank, _, parse_of_not_isBlank hChoice hBlank, choice, label, rfl, hChoice,
      hLabel, rfl⟩

/-- Texts of the right form without a blank part are all read, each as a directive that spells it.
-/
theorem parseAll_of_isSelect (hSelect : ∀ t ∈ ts, Settings.isSelect t = true)
    (hFilled : ∀ t ∈ ts, ¬ HasBlankPart t) :
    ∃ ds, parseAll complain ts = .ok ds ∧ List.Forall₂ IsSpeltBy ts ds := by
  induction ts with
  | nil => exact ⟨[], rfl, .nil⟩
  | cons t ts ih =>
      obtain ⟨ds, hRest, hSpelt⟩ := ih (fun u hu => hSelect u (List.mem_cons_of_mem _ hu))
        fun u hu => hFilled u (List.mem_cons_of_mem _ hu)
      rcases parse_of_isSelect (hSelect t List.mem_cons_self) with ⟨hBlank, -⟩ | ⟨-, d, hFirst, hd⟩
      · exact absurd hBlank (hFilled t List.mem_cons_self)
      · exact ⟨d :: ds, by rw [parseAll, hFirst, hRest]; rfl, .cons hd hSpelt⟩

/-- The first text with a blank part is refused, and the complaint quotes it without a place in the
document. -/
theorem parseAll_of_hasBlankPart (hSelect : ∀ u ∈ before ++ t :: after, Settings.isSelect u = true)
    (hFilled : ∀ u ∈ before, ¬ HasBlankPart u) (hBlank : HasBlankPart t) :
    parseAll complain (before ++ t :: after) = .error (complain (malformed t)) := by
  induction before with
  | nil =>
      rcases parse_of_isSelect (hSelect t List.mem_cons_self) with ⟨-, hRefused⟩ | ⟨hFull, -⟩
      · rw [List.nil_append, parseAll, hRefused]
      · exact absurd hBlank hFull
  | cons u before ih =>
      have hRest := ih (fun x hx => hSelect x (List.mem_cons_of_mem _ hx))
        fun x hx => hFilled x (List.mem_cons_of_mem _ hx)
      rcases parse_of_isSelect (hSelect u List.mem_cons_self) with ⟨hFirst, -⟩ | ⟨-, d, hParse, -⟩
      · exact absurd hFirst (hFilled u List.mem_cons_self)
      · rw [List.cons_append, parseAll, hParse, hRest]
        rfl

/-- Without flags the directives are those of the settings. -/
theorem combine_nil (ts : List Text) : combine ts [] = parseAll malformedSetting ts := by
  rw [combine, parseAll]
  cases parseAll malformedSetting ts with
  | error c => rfl
  | ok ds => simp

end Directive

namespace Settings

open Yaml Directive

/-- Settings that are accepted have selects that match the pattern, and an item that does not is reported
with its place. Of texts that match, each is a directive if none has a part of white space only; otherwise
the first that has one is refused, without a place, when the directives are read. -/
theorem selects_usable (source running : Text) (ts : List Text) (hSelect : ∀ t ∈ ts, isSelect t = true) :
    (∀ settings, parse source running = .ok settings → ∀ t ∈ settings.selects, isSelect t = true) ∧
    (∀ i v, (selectItems source)[i]? = some v → ¬ HoldsSelect v →
      ∃ messages what, parse source running = .error (.invalid messages) ∧
        mistake ["selects", Text.decimal i] what ∈ messages) ∧
    ((∀ t ∈ ts, ¬ HasBlankPart t) →
      ∃ ds, combine ts [] = .ok ds ∧ List.Forall₂ IsSpeltBy ts ds) ∧
    ∀ before t after, ts = before ++ t :: after → (∀ u ∈ before, ¬ HasBlankPart u) → HasBlankPart t →
      combine ts [] = .error (malformedSetting (malformed t)) := by
  rw [combine_nil]
  refine ⟨fun _ => isSelect_of_parse, fun _ _ => parse_eq_invalid, parseAll_of_isSelect hSelect, ?_⟩
  rintro before t after rfl
  exact parseAll_of_hasBlankPart hSelect

/-- A settings file with two selects, of which the second has a blank choice. -/
def blankChoice : Text := "selects: [' layout : part', ' :b']\n"

theorem parse_blankChoice :
    (parse blankChoice "1.0.0").toOption = some { selects := [" layout : part", " :b"] } := by
  decide +kernel

/-- The space before the colon is all there is of the choice. -/
theorem hasBlankPart_blankChoice : HasBlankPart " :b" :=
  ⟨" ", "b", by decide, by decide, Or.inl (by decide)⟩

/-- An item without a colon is reported at its place in the list. Of two items that pass the check,
the one with spaces around its parts can be used; the one whose choice is blank is refused only when
the selects are read, and no place is told. -/
theorem selects_usable_blankChoice :
    (∀ t ∈ ([" layout : part", " :b"] : List Text), isSelect t = true) ∧
      (∃ messages what, parse "selects: [layout]\n" "1.0.0" = .error (.invalid messages) ∧
        mistake ["selects", Text.decimal 0] what ∈ messages) ∧
      (∃ ds, combine [" layout : part"] [] = .ok ds ∧ List.Forall₂ IsSpeltBy [" layout : part"] ds) ∧
      combine [" layout : part", " :b"] [] = .error (malformedSetting (malformed " :b")) := by
  obtain ⟨hAccepted, -, hRead, -⟩ :=
    selects_usable blankChoice "1.0.0" [" layout : part"] (by decide)
  have hSelect : ∀ t ∈ ([" layout : part", " :b"] : List Text), isSelect t = true := by
    cases hParse : parse blankChoice "1.0.0" with
    | error e =>
        have hSome := parse_blankChoice
        rw [hParse] at hSome
        cases hSome
    | ok settings =>
        have hSome := parse_blankChoice
        rw [hParse] at hSome
        obtain rfl := Option.some.inj hSome
        exact hAccepted _ hParse
  have hFilled : ¬ HasBlankPart " layout : part" := by
    have hParts : (" layout : part" : Text) = (" layout " : Text) ++ 58 :: (" part" : Text) := by decide
    rw [hParts, hasBlankPart_append (by decide)]
    decide
  have hItem : (selectItems "selects: [layout]\n")[0]?.bind Value.dataText? =
      some ("layout" : Text) := by decide +kernel
  obtain ⟨v, hv, hText⟩ := Option.bind_eq_some_iff.mp hItem
  have hNot : ¬ HoldsSelect v := by
    rintro ⟨t, hData, hSelect⟩
    rw [hText] at hData
    cases hData
    exact absurd hSelect (by decide)
  obtain ⟨-, hReported, -, hRefused⟩ :=
    selects_usable "selects: [layout]\n" "1.0.0" [" layout : part", " :b"] hSelect
  have hSecond := hRefused [" layout : part"] " :b" [] rfl (by simpa using hFilled)
    hasBlankPart_blankChoice
  exact ⟨hSelect, hReported 0 v hv hNot, hRead (by simpa using hFilled), hSecond⟩

/-- A text that matches the pattern and passes the check of the settings need not be a directive. -/
theorem not_selects_usable :
    ¬ (∀ ts : List Text, (∀ t ∈ ts, isSelect t = true) →
        ∃ ds, combine ts [] = .ok ds ∧ List.Forall₂ IsSpeltBy ts ds) ∧
      (parse "selects: [' :b']\n" "1.0.0").toOption = some { selects := [" :b"] } ∧
      combine [" :b"] [] = .error (malformedSetting (malformed " :b")) := by
  have hRefused : combine [" :b"] [] = .error (malformedSetting (malformed " :b")) := by rfl
  refine ⟨fun h => ?_, by decide +kernel, hRefused⟩
  obtain ⟨ds, hRead, -⟩ := h [" :b"] (by decide)
  rw [hRefused] at hRead
  cases hRead

end Settings

end Runsheet
