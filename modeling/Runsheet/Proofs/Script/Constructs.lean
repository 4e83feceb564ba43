import Runsheet.Proofs.Script.Reads

/-! The constructs of the grammar in both directions. What a construct reads is spelled by the tokens
it took, and a spelled construct is read; an option needs to know that what comes after it starts
something new. -/
namespace Runsheet

namespace Reader

variable {β : Type} {eof : Token} {tokens rest : List Token} {events : List Event} {u : Unit}
  {context : Construct}

/-- Reading an optional token divides into two cases by the next token; only in the first is it
taken. -/
theorem reads_accept_bind {kind : TokenKind} {f : Bool → Recorder β} {b : β} :
    (accept kind >>= f).Reads eof tokens events b rest ↔
      (tokens.headD eof).kind = kind ∧ (f true).Reads eof tokens.tail events b rest ∨
        (tokens.headD eof).kind ≠ kind ∧ (f false).Reads eof tokens events b rest := by
  have hAccept : ∀ {first a middle}, (accept kind).Reads eof tokens first a middle ↔
      (tokens.headD eof).kind = kind ∧ first = [] ∧ a = true ∧ middle = tokens.tail ∨
        (tokens.headD eof).kind ≠ kind ∧ first = [] ∧ a = false ∧ middle = tokens := by
    intro first a middle
    rw [accept, reads_current_bind, reads_ite, reads_advance_bind, reads_pure, reads_pure]
  rw [reads_bind]
  constructor
  · rintro ⟨_, _, _, _, h, hf, rfl⟩
    rcases hAccept.mp h with ⟨hKind, rfl, rfl, rfl⟩ | ⟨hKind, rfl, rfl, rfl⟩
    · exact Or.inl ⟨hKind, hf⟩
    · exact Or.inr ⟨hKind, hf⟩
  · rintro (⟨hKind, hf⟩ | ⟨hKind, hf⟩)
    · exact ⟨[], _, _, _, hAccept.mpr (Or.inl ⟨hKind, rfl, rfl, rfl⟩), hf, rfl⟩
    · exact ⟨[], _, _, _, hAccept.mpr (Or.inr ⟨hKind, rfl, rfl, rfl⟩), hf, rfl⟩

/-- What is spelled with a reserved word in front starts with it. -/
theorem headD_kind_of_keyword {k : Keyword} {p : Spelling}
    (h : (Spelling.next (.keyword k) p).Takes tokens rest) :
    (tokens.headD eof).kind = .keyword k := by
  simp only [Spelling.takes_next, Spelling.takes_keyword] at h
  obtain ⟨_, ⟨t, rfl, ht⟩, _⟩ := h
  exact ht

variable (hEof : eof.kind = .eof)
include hEof

section statements

/-- The end of a tool statement and of a source statement. -/
theorem reads_word_stop {event : Text → Event} {pos : Pos} :
    (do let name ← word context
        let _ ← expect .semicolon context
        emit (event name) pos : Recorder Unit).Reads eof tokens events u rest ↔
      ∃ name, (Spelling.next (.word name) (.sign .semicolon)).Takes tokens rest ∧
        events = [event name] := by
  simp only [reads_bind (x := word context), reads_expect_bind hEof .semicolon (by decide),
    reads_emit, Spelling.takes_next, Spelling.takes_sign]
  constructor
  · rintro ⟨_, name, middle, _, hWord, ⟨stop, _, rfl, hStop, rfl, rfl⟩, rfl⟩
    obtain ⟨rfl, hTakes⟩ := word_sound hEof hWord
    exact ⟨name, ⟨_, hTakes, stop, rfl, hStop⟩, rfl⟩
  · rintro ⟨name, ⟨_, hTakes, stop, rfl, hStop⟩, rfl⟩
    refine ⟨[], name, stop :: rest, _, word_complete hTakes ?_, ?_, rfl⟩
    · rw [List.headD_cons, hStop]
      decide
    · exact ⟨stop, rest, rfl, hStop, rfl, rfl⟩

/-- From its reserved word on, a tool statement is read exactly when a spelling of one stands there,
and the event has the name spelt. -/
theorem reads_toolStatement (hStart : (tokens.headD eof).kind = .keyword .tool) :
    toolStatement.Reads eof tokens events u rest ↔
      ∃ name, (Spelling.named .tool name).Takes tokens rest ∧ events = [.setTool name] := by
  obtain ⟨start, tail, rfl, hStart⟩ := cons_of_headD_kind hEof hStart (by decide)
  simp only [toolStatement, reads_current_bind, reads_enter_bind, reads_advance_bind,
    reads_expect_bind hEof .colon (by decide), reads_word_stop hEof, Spelling.named,
    Spelling.takes_next, Spelling.takes_sign, Spelling.takes_keyword, List.tail_cons,
    List.cons.injEq]
  constructor
  · rintro ⟨colon, middle, rfl, hColon, name, hWord, rfl⟩
    exact ⟨name, ⟨_, ⟨start, ⟨rfl, rfl⟩, hStart⟩, middle, ⟨colon, rfl, hColon⟩, hWord⟩, rfl⟩
  · rintro ⟨name, ⟨_, ⟨_, ⟨rfl, rfl⟩, _⟩, middle, ⟨colon, rfl, hColon⟩, hWord⟩, rfl⟩
    exact ⟨colon, middle, rfl, hColon, name, hWord, rfl⟩

/-- A source statement is told from a declaration by its colon, which is not looked at again. -/
theorem reads_inputStatement (hStart : (tokens.headD eof).kind = .keyword .input)
    (hColon : (tokens.tail.headD eof).kind = .colon) :
    inputStatement.Reads eof tokens events u rest ↔
      ∃ name, (Spelling.named .input name).Takes tokens rest ∧ events = [.addSource name] := by
  obtain ⟨start, tail, rfl, hStart⟩ := cons_of_headD_kind hEof hStart (by decide)
  obtain ⟨colon, middle, rfl, hColon⟩ := cons_of_headD_kind hEof hColon (by decide)
  simp only [inputStatement, reads_current_bind, reads_enter_bind, reads_advance_bind,
    reads_word_stop hEof, Spelling.named, Spelling.takes_next, Spelling.takes_sign,
    Spelling.takes_keyword, List.tail_cons, List.cons.injEq]
  constructor
  · rintro ⟨name, hWord, rfl⟩
    exact ⟨name, ⟨_, ⟨start, ⟨rfl, rfl⟩, hStart⟩, middle, ⟨colon, rfl, hColon⟩, hWord⟩, rfl⟩
  · rintro ⟨name, ⟨_, ⟨_, ⟨rfl, rfl⟩, _⟩, _, ⟨_, ⟨rfl, rfl⟩, _⟩, hWord⟩, rfl⟩
    exact ⟨name, hWord, rfl⟩

/-- A select statement is read exactly where one is spelt. The label may be any word, also one that
stands for all labels. -/
theorem reads_selectStatement (hStart : (tokens.headD eof).kind = .keyword .select) :
    selectStatement.Reads eof tokens events u rest ↔
      ∃ choice label, (Spelling.select choice label).Takes tokens rest ∧
        events = [.select choice label] := by
  obtain ⟨start, tail, rfl, hStart⟩ := cons_of_headD_kind hEof hStart (by decide)
  simp only [selectStatement, reads_current_bind, reads_enter_bind, reads_advance_bind,
    reads_expect_bind hEof .colon (by decide), reads_expect_bind hEof .name (by decide),
    reads_expect_bind hEof .semicolon (by decide), reads_bind (x := label _), reads_emit,
    Spelling.select, Spelling.takes_next, Spelling.takes_sign, Spelling.takes_name,
    Spelling.takes_keyword, List.tail_cons, List.cons.injEq]
  constructor
  · rintro ⟨name, _, rfl, hName, colon, _, rfl, hColon, _, text, _, _, hLabel,
      ⟨stop, _, rfl, hStop, rfl, rfl⟩, rfl⟩
    obtain ⟨rfl, hTakes⟩ := label_sound hEof hLabel
    exact ⟨name.value, text, ⟨_, ⟨start, ⟨rfl, rfl⟩, hStart⟩, _, ⟨name, rfl, hName, rfl⟩, _,
      ⟨colon, rfl, hColon⟩, _, hTakes, stop, rfl, hStop⟩, rfl⟩
  · rintro ⟨_, text, ⟨_, ⟨_, ⟨rfl, rfl⟩, _⟩, _, ⟨name, rfl, hName, rfl⟩, _,
      ⟨colon, rfl, hColon⟩, _, hTakes, stop, rfl, hStop⟩, rfl⟩
    refine ⟨name, _, rfl, hName, colon, _, rfl, hColon, [], text, _, _, label_complete hTakes ?_,
      ⟨stop, rest, rfl, hStop, rfl, rfl⟩, rfl⟩
    rw [List.headD_cons, hStop]
    decide

/-- The statement that selects all labels is read as a select statement with the label that stands
for all. -/
theorem reads_everyStatement (hStart : (tokens.headD eof).kind = .keyword .every) :
    everyStatement.Reads eof tokens events u rest ↔
      ∃ choice, (Spelling.every choice).Takes tokens rest ∧ events = [.select choice allLabels] := by
  obtain ⟨start, tail, rfl, hStart⟩ := cons_of_headD_kind hEof hStart (by decide)
  simp only [everyStatement, reads_current_bind, reads_enter_bind, reads_advance_bind,
    reads_expect_bind hEof .name (by decide), reads_expect_bind hEof .semicolon (by decide),
    reads_emit, Spelling.every, Spelling.takes_next, Spelling.takes_sign, Spelling.takes_name,
    Spelling.takes_keyword, List.tail_cons, List.cons.injEq]
  constructor
  · rintro ⟨name, _, rfl, hName, stop, _, rfl, hStop, rfl, rfl⟩
    exact ⟨name.value, ⟨_, ⟨start, ⟨rfl, rfl⟩, hStart⟩, _, ⟨name, rfl, hName, rfl⟩,
      stop, rfl, hStop⟩, rfl⟩
  · rintro ⟨_, ⟨_, ⟨_, ⟨rfl, rfl⟩, _⟩, _, ⟨name, rfl, hName, rfl⟩, stop, rfl, hStop⟩, rfl⟩
    exact ⟨name, _, rfl, hName, stop, _, rfl, hStop, rfl, rfl⟩

/-- The default label of a declaration, before its semicolon. -/
theorem reads_defaultClause {kind : AxisKind} {name : Text} {stop : Token}
    (hStop : stop.kind = .semicolon) :
    (defaultClause kind name).Reads eof tokens events u (stop :: rest) ↔
      ∃ l, (Spelling.default l).Takes tokens (stop :: rest) ∧
        events = (l.map (.setDefault kind name)).toList := by
  rw [defaultClause, reads_accept_bind, if_pos rfl, if_neg Bool.false_ne_true, reads_pure]
  constructor
  · rintro (⟨hComma, h⟩ | ⟨_, rfl, _, rfl⟩)
    · obtain ⟨comma, _, rfl, hComma⟩ := cons_of_headD_kind hEof hComma (by decide)
      simp only [reads_expect_bind hEof (.keyword .default) (by decide),
        reads_expect_bind hEof .colon (by decide), reads_current_bind, reads_bind (x := label _),
        reads_emit, List.tail_cons] at h
      obtain ⟨default, _, rfl, hDefault, colon, _, rfl, hColon, _, text, _, _, hLabel, ⟨rfl, rfl⟩,
        rfl⟩ := h
      obtain ⟨rfl, hTakes⟩ := label_sound hEof hLabel
      refine ⟨some text, ?_, rfl⟩
      simp only [Spelling.default, Spelling.takes_next, Spelling.takes_sign, Spelling.takes_keyword]
      exact ⟨_, ⟨comma, rfl, hComma⟩, _, ⟨default, rfl, hDefault⟩, _, ⟨colon, rfl, hColon⟩, hTakes⟩
    · exact ⟨none, Spelling.takes_empty.mpr rfl, rfl⟩
  · rintro ⟨l, hTakes, rfl⟩
    cases l with
    | none =>
        obtain rfl := Spelling.takes_empty.mp hTakes
        refine Or.inr ⟨?_, rfl, rfl, rfl⟩
        rw [List.headD_cons, hStop]
        decide
    | some text =>
        simp only [Spelling.default, Spelling.takes_next, Spelling.takes_sign,
          Spelling.takes_keyword] at hTakes
        obtain ⟨_, ⟨comma, rfl, hComma⟩, _, ⟨default, rfl, hDefault⟩, _, ⟨colon, rfl, hColon⟩,
          hLabel⟩ := hTakes
        refine Or.inl ⟨hComma, ?_⟩
        simp only [reads_expect_bind hEof (.keyword .default) (by decide),
          reads_expect_bind hEof .colon (by decide), reads_current_bind, reads_bind (x := label _),
          reads_emit, List.tail_cons]
        refine ⟨default, _, rfl, hDefault, colon, _, rfl, hColon, [], text, _, _,
          label_complete hLabel ?_, ⟨rfl, rfl⟩, rfl⟩
        rw [List.headD_cons, hStop]
        decide

variable (eof) in
omit hEof in
/-- The default of a declaration, if it has one, starts with a comma, and a semicolon follows. -/
theorem headD_kind_of_default {l : Option Text} {stop : Token} (hStop : stop.kind = .semicolon)
    (h : (Spelling.default l).Takes tokens (stop :: rest)) :
    (tokens.headD eof).kind = .comma ∨ (tokens.headD eof).kind = .semicolon := by
  cases l with
  | none =>
      obtain rfl := Spelling.takes_empty.mp h
      exact Or.inr hStop
  | some text =>
      simp only [Spelling.default, Spelling.takes_next, Spelling.takes_sign] at h
      obtain ⟨_, ⟨comma, rfl, hComma⟩, _⟩ := h
      exact Or.inl hComma

/-- A declaration is read exactly where one is spelt: a name, at least one label and perhaps a
default, each with its event in this order. -/
theorem reads_declaration {kind : AxisKind}
    (hStart : (tokens.headD eof).kind = .keyword (Spelling.axisKeyword kind)) :
    (declaration kind).Reads eof tokens events u rest ↔
      ∃ name first more l, (Spelling.declaration kind name first more l).Takes tokens rest ∧
        events = (Statement.axis kind name first more l).events := by
  obtain ⟨start, tail, rfl, hStart⟩ := cons_of_headD_kind hEof hStart (by simp)
  simp only [declaration, reads_current_bind, reads_note_bind, reads_advance_bind,
    reads_expect_bind hEof .colon (by decide), reads_expect_bind hEof .name (by decide),
    reads_emit_bind, List.tail_cons]
  simp only [Spelling.declaration, Spelling.takes_next, Spelling.takes_sign, Spelling.takes_name,
    Spelling.takes_keyword, List.cons.injEq]
  constructor
  · rintro ⟨name, _, rfl, hName, _, ⟨colon, _, rfl, hColon, h⟩, rfl⟩
    obtain ⟨_, _, _, _, hLabels, hMore, rfl⟩ := reads_bind.mp h
    obtain ⟨_, _, _, _, hDefault, hEnd, rfl⟩ := reads_bind.mp hMore
    rw [reads_expect_bind hEof .semicolon (by decide)] at hEnd
    obtain ⟨stop, _, rfl, hStop, hPure⟩ := hEnd
    obtain ⟨rfl, _, rfl⟩ := reads_pure.mp hPure
    obtain ⟨first, more, hFirst, rfl⟩ := labels_sound hEof hLabels
    obtain ⟨l, hLast, rfl⟩ := (reads_defaultClause hEof hStop).mp hDefault
    refine ⟨name.value, first, more, l, ⟨_, ⟨start, ⟨rfl, rfl⟩, hStart⟩, _,
      ⟨name, rfl, hName, rfl⟩, _, ⟨colon, rfl, hColon⟩, _, hFirst, _, hLast, stop, rfl, hStop⟩, ?_⟩
    simp [Statement.events]
  · rintro ⟨_, first, more, l, ⟨_, ⟨_, ⟨rfl, rfl⟩, _⟩, _, ⟨name, rfl, hName, rfl⟩, _,
      ⟨colon, rfl, hColon⟩, _, hLabels, _, hDefault, stop, rfl, hStop⟩, rfl⟩
    refine ⟨name, _, rfl, hName, _, ⟨colon, _, rfl, hColon, ?_⟩, rfl⟩
    have hNext := headD_kind_of_default eof hStop hDefault
    refine reads_bind.mpr ⟨_, (), _, _, labels_complete hEof hLabels ?_ ?_, ?_, rfl⟩
    · rcases hNext with h | h <;> rw [h] <;> decide
    · rcases hNext with h | h <;> rw [h] <;> decide
    · refine reads_bind.mpr ⟨_, (), _, [], (reads_defaultClause hEof hStop).mpr ⟨l, hDefault, rfl⟩,
        ?_, (List.append_nil _).symm⟩
      rw [reads_expect_bind hEof .semicolon (by decide)]
      exact ⟨stop, rest, rfl, hStop, reads_pure.mpr ⟨rfl, rfl, rfl⟩⟩

end statements

section options

/-- What can come after an option: another one, the end of an alternative or of the script, or a
statement, whose reserved word has a colon or a name after it. -/
def Clear (eof : Token) (tokens : List Token) : Prop :=
  (tokens.headD eof).kind = .option ∨ (tokens.headD eof).kind = .semicolon ∨
    (tokens.headD eof).kind = .eof ∨
    ∃ k, (tokens.headD eof).kind = .keyword k ∧ k ≠ .default ∧
      ((tokens.tail.headD eof).kind = .colon ∨ (tokens.tail.headD eof).kind = .name)

omit hEof in
/-- After an option only another one, a semicolon, the end or a reserved word may come, and so none
of the other kinds. -/
theorem Clear.kind_ne (h : Clear eof tokens) (kind : TokenKind) (hKind : kind ≠ .option)
    (hKind' : kind ≠ .semicolon) (hKind'' : kind ≠ .eof) (hWord : kind.isKeyword = false) :
    (tokens.headD eof).kind ≠ kind := by
  rcases h with h | h | h | ⟨k, h, _⟩ <;> rw [h]
  · exact hKind.symm
  · exact hKind'.symm
  · exact hKind''.symm
  · rintro rfl
    cases hWord

/-- A word that is no reserved word in front of a statement is a value, by itself or as the first
of a pair. -/
theorem compoundValue_sound {x : Token} {tail : List Token} {text : Text}
    (hx : x.kind.isWord = true)
    (hStart : ∀ k, x.kind = .keyword k → k ≠ .default → (tail.headD eof).kind ≠ .colon)
    (h : compoundValue.Reads eof (x :: tail) events text rest) :
    events = [] ∧ (Spelling.value (some text)).Takes (x :: tail) rest := by
  rw [compoundValue, reads_advance_bind, reads_current_bind, reads_following_bind, reads_ite,
    reads_advance_bind, reads_advance_bind, reads_pure, reads_pure, List.tail_cons] at h
  rcases h with ⟨hPair, rfl, rfl, rfl⟩ | ⟨_, rfl, rfl, rfl⟩
  · simp only [Bool.and_eq_true, Bool.or_eq_true, decide_eq_true_eq, Bool.not_eq_true'] at hPair
    obtain ⟨⟨⟨hSign, hTouch⟩, hWord⟩, hTouch'⟩ := hPair
    match tail with
    | [] | [_] =>
        have hEnd : eof.kind.isWord = true := hWord
        rw [hEof] at hEnd
        cases hEnd
    | sign :: y :: rest =>
        rw [Spelling.takes_value_some, Spelling.takes_pair]
        refine ⟨rfl, Or.inr ⟨x, sign, y, rfl, hx, hWord, hTouch, hTouch', ?_⟩⟩
        rcases hSign with hSign | hSign
        · have hEquals : sign.kind = .equals := hSign
          refine Or.inl ⟨hEquals, ?_⟩
          simp only [List.headD_cons, List.tail_cons, hEquals, if_true]
          rfl
        · have hColon : sign.kind = .colon := hSign
          refine Or.inr ⟨hColon, ?_, fun k hk => ?_⟩
          · simp only [List.headD_cons, List.tail_cons, hColon, reduceCtorEq, if_false]
            rfl
          · exact Decidable.byContradiction fun hOther => hStart k hk hOther hColon
  · rw [Spelling.takes_value_some, Spelling.takes_label]
    exact ⟨rfl, Or.inl (Or.inl ⟨x, rfl, hx, rfl⟩)⟩

omit hEof in
/-- A value that is spelt in one piece or in two that touch is read whole, if what comes behind does
not go on with it. -/
theorem compoundValue_complete {x : Token} {tail : List Token} {text : Text}
    (hx : x.kind.isWord = true) (h : (Spelling.value (some text)).Takes (x :: tail) rest)
    (hClear : Clear eof rest) :
    compoundValue.Reads eof (x :: tail) [] text rest := by
  rw [compoundValue, reads_advance_bind, reads_current_bind, reads_following_bind, reads_ite,
    reads_advance_bind, reads_advance_bind, reads_pure, reads_pure, List.tail_cons]
  rw [Spelling.takes_value_some, Spelling.takes_label, Spelling.takes_pair] at h
  rcases h with (⟨t, hTokens, _, rfl⟩ | hStrings) | ⟨t, sign, y, hTokens, _, hy, hTouch, hTouch', h⟩
  · obtain ⟨rfl, rfl⟩ := List.cons.inj hTokens
    refine Or.inr ⟨?_, rfl, rfl, rfl⟩
    rw [decide_eq_false (hClear.kind_ne .equals (by decide) (by decide) (by decide) rfl),
      decide_eq_false (hClear.kind_ne .colon (by decide) (by decide) (by decide) rfl)]
    simp
  · have hString : ((x :: tail).headD eof).kind = .string := headD_kind_of_strings hStrings
    rw [List.headD_cons] at hString
    rw [hString] at hx
    cases hx
  · obtain ⟨rfl, rfl⟩ := List.cons.inj hTokens
    rcases h with ⟨hSign, rfl⟩ | ⟨hSign, rfl, _⟩
    · refine Or.inl ⟨by simp [hSign, hTouch, hTouch', hy], rfl, ?_, rfl⟩
      simp only [List.headD_cons, List.tail_cons, hSign, if_true]
      rfl
    · refine Or.inl ⟨by simp [hSign, hTouch, hTouch', hy], rfl, ?_, rfl⟩
      simp only [List.headD_cons, List.tail_cons, hSign, reduceCtorEq, if_false]
      rfl

omit hEof in
/-- An option with a value is reported when the value has been read, under the place of the option.
-/
theorem reads_switch {name : Text} {value : Recorder Text} {pos : Pos} :
    (do emit (.addSwitch { name, value := ← value, hasValue := true }) pos : Recorder Unit).Reads
        eof tokens events u rest ↔
      ∃ first text, value.Reads eof tokens first text rest ∧
        events = first ++ [.addSwitch (.ofOption name (some text))] := by
  rw [reads_bind]
  constructor
  · rintro ⟨first, text, _, _, hValue, hEmit, rfl⟩
    obtain ⟨rfl, rfl⟩ := reads_emit.mp hEmit
    exact ⟨first, text, hValue, rfl⟩
  · rintro ⟨first, text, hValue, rfl⟩
    exact ⟨first, text, rest, _, hValue, reads_emit.mpr ⟨rfl, rfl⟩, rfl⟩

omit hEof in
/-- The value of an option begins with a word or a string. -/
theorem cons_of_value {text : Text} (h : (Spelling.value (some text)).Takes tokens rest) :
    (∃ x more, tokens = x :: more ∧ x.kind.isWord = true) ∨
      (Spelling.strings text).Takes tokens rest := by
  rw [Spelling.takes_value_some, Spelling.takes_label, Spelling.takes_pair] at h
  rcases h with (⟨t, rfl, ht, _⟩ | hStrings) | ⟨x, sign, y, rfl, hx, _⟩
  · exact Or.inl ⟨t, rest, rfl, ht⟩
  · exact Or.inr hStrings
  · exact Or.inl ⟨x, _, rfl, hx⟩

omit hEof in
/-- A reserved word is taken for a value if it is the word of defaults, or if nothing behind it
makes it the start of a statement. -/
theorem isKeywordValue_iff {x y : Token} {k : Keyword} (hx : x.kind = .keyword k) :
    isKeywordValue x y = true ↔ k = .default ∨ y.kind ≠ .colon ∧ y.kind ≠ .name := by
  cases k <;> simp [isKeywordValue, hx]

omit hEof in
theorem isKeywordValue_eq_false {x y : Token} (hx : x.kind.isKeyword = false) :
    isKeywordValue x y = false := by
  cases hKind : x.kind with
  | keyword k =>
      rw [hKind] at hx
      cases hx
  | _ => rw [isKeywordValue, hKind]

/-- What is read of an option is a spelling of it: the raw name and, in one of four ways, its value.
-/
theorem option_sound (hStart : (tokens.headD eof).kind = .option)
    (h : option.Reads eof tokens events u rest) :
    ∃ name v, (Spelling.setting name v).Takes tokens rest ∧
      events = [.addSwitch (.ofOption name v)] := by
  obtain ⟨token, tail, rfl, hToken⟩ := cons_of_headD_kind hEof hStart (by decide)
  have hRaw : token.value = token.raw := by simp [Token.value, hToken]
  -- It is enough to find the value and its spelling.
  suffices hValue : ∃ v, (Spelling.value v).Takes tail rest ∧
      events = [.addSwitch (.ofOption token.raw v)] by
    obtain ⟨v, hTakes, rfl⟩ := hValue
    refine ⟨token.raw, v, ?_, rfl⟩
    rw [Spelling.setting, Spelling.takes_next]
    exact ⟨tail, Spelling.takes_one.mpr ⟨token, rfl, hToken, hRaw⟩, hTakes⟩
  have hCompound : ∀ {x : Token} {more : List Token}, tail = x :: more → x.kind.isWord = true →
      (∀ k, x.kind = .keyword k → k ≠ .default → (more.headD eof).kind ≠ .colon) →
      (∃ first text, compoundValue.Reads eof tail first text rest ∧
        events = first ++ [.addSwitch (.ofOption token.raw (some text))]) →
      ∃ v, (Spelling.value v).Takes tail rest ∧
        events = [.addSwitch (.ofOption token.raw v)] := by
    rintro x more rfl hx hStart ⟨first, text, hRead, rfl⟩
    obtain ⟨rfl, hTakes⟩ := compoundValue_sound hEof hx hStart hRead
    exact ⟨some text, hTakes, rfl⟩
  rw [option, reads_advance_bind, reads_note_bind, reads_current_bind] at h
  rw [List.headD_cons, List.tail_cons] at h
  cases hKind : (tail.headD eof).kind with
  | string =>
      rw [hKind] at h
      obtain ⟨first, text, hStrings, rfl⟩ := reads_switch.mp h
      obtain ⟨rfl, hTakes⟩ := strings_sound hEof hKind hStrings
      exact ⟨some text, Spelling.takes_value_some.mpr
        (Or.inl (Spelling.takes_label.mpr (Or.inr hTakes))), rfl⟩
  | name | integer | double =>
      obtain ⟨x, more, hTail, hx⟩ := cons_of_headD_kind hEof hKind (by decide)
      rw [hKind] at h
      refine hCompound hTail (by rw [hx]; rfl) ?_ (reads_switch.mp h)
      rw [hx]
      simp
  | illegal =>
      rw [hKind] at h
      exact absurd h (by simp)
  | keyword k =>
      obtain ⟨x, more, hTail, hx⟩ := cons_of_headD_kind hEof hKind (by simp)
      rw [hKind] at h
      dsimp only at h
      rw [reads_following_bind, reads_ite] at h
      rcases h with ⟨hValue, h⟩ | ⟨_, h⟩
      · refine hCompound hTail (by rw [hx]; rfl) ?_ (reads_switch.mp h)
        intro k' hk' hOther hColon
        rw [hTail, List.headD_cons, List.tail_cons, isKeywordValue_iff hk'] at hValue
        rcases hValue with hDefault | ⟨hOther', _⟩
        · exact hOther hDefault
        · exact hOther' hColon
      · obtain ⟨rfl, rfl⟩ := reads_emit.mp h
        exact ⟨none, Spelling.takes_empty.mpr rfl, rfl⟩
  | _ =>
      rw [hKind] at h
      dsimp only at h
      rw [reads_following_bind, isKeywordValue_eq_false (by rw [hKind]; rfl)] at h
      obtain ⟨rfl, rfl⟩ := reads_emit.mp h
      exact ⟨none, Spelling.takes_empty.mpr rfl, rfl⟩

omit hEof in
/-- A reserved word that spells a value is taken for one. -/
theorem isKeywordValue_of_value {x : Token} {more : List Token} {k : Keyword} {text : Text}
    (hx : x.kind = .keyword k) (h : (Spelling.value (some text)).Takes (x :: more) rest)
    (hClear : Clear eof rest) : isKeywordValue x (more.headD eof) = true := by
  rw [isKeywordValue_iff hx]
  rw [Spelling.takes_value_some, Spelling.takes_label, Spelling.takes_pair] at h
  rcases h with (⟨t, hTokens, _, _⟩ | hStrings) | ⟨t, sign, y, hTokens, _, _, _, _, h⟩
  · obtain ⟨rfl, rfl⟩ := List.cons.inj hTokens
    exact Or.inr ⟨hClear.kind_ne .colon (by decide) (by decide) (by decide) rfl,
      hClear.kind_ne .name (by decide) (by decide) (by decide) rfl⟩
  · have hString : ((x :: more).headD eof).kind = .string := headD_kind_of_strings hStrings
    cases hx.symm.trans hString
  · obtain ⟨rfl, rfl⟩ := List.cons.inj hTokens
    rcases h with ⟨hSign, _⟩ | ⟨_, _, hDefault⟩
    · rw [List.headD_cons, hSign]
      exact Or.inr ⟨(by decide), (by decide)⟩
    · exact Or.inl (hDefault k hx)

omit hEof in
/-- A spelled option is read when what follows is clear of it. -/
theorem option_complete {name : Text} {v : Option Text}
    (h : (Spelling.setting name v).Takes tokens rest) (hClear : Clear eof rest) :
    option.Reads eof tokens [.addSwitch (.ofOption name v)] u rest := by
  rw [Spelling.setting, Spelling.takes_next] at h
  obtain ⟨tail, hOption, hValue⟩ := h
  obtain ⟨token, rfl, hKind, rfl⟩ := Spelling.takes_one.mp hOption
  have hToken : token.kind = .option := hKind
  have hRaw : token.symbol.value = token.raw := by simp [Token.symbol, Token.value, hToken]
  rw [option, reads_advance_bind, reads_note_bind, reads_current_bind, List.headD_cons,
    List.tail_cons, hRaw]
  cases v with
  | none =>
      obtain rfl := Spelling.takes_empty.mp hValue
      have hBare : (emit (.addSwitch { name := token.raw }) token.pos).Reads eof tail
          [.addSwitch (.ofOption token.raw none)] u tail := reads_emit.mpr ⟨rfl, rfl⟩
      rcases hClear with h | h | h | ⟨k, h, hk, hNext⟩ <;> rw [h] <;> dsimp only <;>
        rw [reads_following_bind]
      · rw [isKeywordValue_eq_false (by rw [h]; rfl)]
        exact hBare
      · rw [isKeywordValue_eq_false (by rw [h]; rfl)]
        exact hBare
      · rw [isKeywordValue_eq_false (by rw [h]; rfl)]
        exact hBare
      · rw [reads_ite, isKeywordValue_iff h]
        refine Or.inr ⟨?_, hBare⟩
        rintro (rfl | ⟨hColon, hName⟩)
        · exact hk rfl
        · exact hNext.elim hColon hName
  | some text =>
      rcases cons_of_value hValue with ⟨x, more, rfl, hx⟩ | hStrings
      · have hCompound : (do
            emit (.addSwitch { name := token.raw, value := ← compoundValue, hasValue := true })
              token.pos : Recorder Unit).Reads eof (x :: more)
            [.addSwitch (.ofOption token.raw (some text))] u rest :=
          reads_switch.mpr ⟨[], text, compoundValue_complete hx hValue hClear, rfl⟩
        cases hKind : x.kind with
        | name | integer | double =>
            rw [List.headD_cons, hKind]
            exact hCompound
        | keyword k =>
            rw [List.headD_cons, hKind]
            dsimp only
            rw [reads_following_bind, List.tail_cons, reads_ite]
            exact Or.inl ⟨isKeywordValue_of_value hKind hValue hClear, hCompound⟩
        | _ =>
            rw [hKind] at hx
            cases hx
      · rw [headD_kind_of_strings hStrings]
        refine reads_switch.mpr ⟨[], text, strings_complete hStrings ?_, rfl⟩
        exact hClear.kind_ne .string (by decide) (by decide) (by decide) rfl

end options

section cases

/-- The head of a case statement is read exactly where its three tokens stand, with something other
than a semicolon behind them. -/
theorem reads_caseHeader {subject : Text} (hStart : (tokens.headD eof).kind = .keyword .case) :
    (caseHeader context).Reads eof tokens events subject rest ↔
      (Spelling.next (.keyword .case) (.next (.name subject) (.sign .colon))).Takes tokens rest ∧
        (rest.headD eof).kind ≠ .semicolon ∧ events = [.beginCase subject] := by
  obtain ⟨start, tail, rfl, hStart⟩ := cons_of_headD_kind hEof hStart (by decide)
  simp only [caseHeader, reads_advance_bind, reads_enter_bind, reads_emit_bind, reads_current_bind,
    reads_expect_bind hEof .name (by decide), reads_expect_bind hEof .colon (by decide),
    List.tail_cons]
  simp only [Spelling.takes_next, Spelling.takes_keyword, Spelling.takes_name, Spelling.takes_sign,
    List.cons.injEq]
  constructor
  · rintro ⟨name, _, rfl, hName, _, ⟨colon, _, rfl, hColon, h⟩, rfl⟩
    rw [reads_ite, reads_fail, and_false, false_or, reads_pure] at h
    obtain ⟨hNext, rfl, rfl, rfl⟩ := h
    exact ⟨⟨_, ⟨start, ⟨rfl, rfl⟩, hStart⟩, _, ⟨name, rfl, hName, rfl⟩, colon, rfl, hColon⟩, hNext,
      rfl⟩
  · rintro ⟨⟨_, ⟨_, ⟨rfl, rfl⟩, _⟩, _, ⟨name, rfl, hName, rfl⟩, colon, rfl, hColon⟩, hNext, rfl⟩
    refine ⟨name, _, rfl, hName, [], ⟨colon, rest, rfl, hColon, ?_⟩, rfl⟩
    rw [reads_ite, reads_pure]
    exact Or.inr ⟨hNext, rfl, rfl, rfl⟩

/-- Labels divided by bars and a colon make the head of an alternative, and each label is reported
in order. -/
theorem reads_alternativeHeader :
    alternativeHeader.Reads eof tokens events u rest ↔
      ∃ first more, (Spelling.next (.labels first more) (.sign .colon)).Takes tokens rest ∧
        events = .beginAlternative :: labelEvents first more := by
  simp only [alternativeHeader, reads_current_bind, reads_enter_bind, reads_emit_bind,
    Spelling.takes_next, Spelling.takes_sign]
  constructor
  · rintro ⟨_, h, rfl⟩
    obtain ⟨_, _, _, _, hLabels, hMore, rfl⟩ := reads_bind.mp h
    rw [reads_expect_bind hEof .colon (by decide)] at hMore
    obtain ⟨colon, _, rfl, hColon, hPure⟩ := hMore
    obtain ⟨rfl, _, rfl⟩ := reads_pure.mp hPure
    obtain ⟨first, more, hTakes, rfl⟩ := labels_sound hEof hLabels
    exact ⟨first, more, ⟨_, hTakes, colon, rfl, hColon⟩, by simp [labelEvents]⟩
  · rintro ⟨first, more, ⟨_, hTakes, colon, rfl, hColon⟩, rfl⟩
    refine ⟨labelEvents first more, reads_bind.mpr ⟨_, (), _, [], labels_complete hEof hTakes ?_ ?_,
      ?_, (List.append_nil _).symm⟩, rfl⟩
    · rw [List.headD_cons, hColon]
      decide
    · rw [List.headD_cons, hColon]
      decide
    · rw [reads_expect_bind hEof .colon (by decide)]
      exact ⟨colon, rest, rfl, hColon, reads_pure.mpr ⟨rfl, rfl, rfl⟩⟩

end cases

end Reader

end Runsheet
