import Runsheet.Proofs.Script.Recorded
import Runsheet.Proofs.Script.Spelling

/-! What successful reading means. A step reads events from the front of a list of tokens and leaves
the rest; places and trace records are forgotten. Small steps are told exactly, and the words of
the language in both directions: what is read is spelled by the tokens that were taken, and what is
spelled is read when nothing that follows could belong to it. -/
namespace Runsheet

/-- The events among reports, without their places. -/
def heard (emitted : List Emission) : List Event := emitted.filterMap fun
  | .event e _ => some e
  | .note _ => none

@[simp] theorem heard_append (a b : List Emission) : heard (a ++ b) = heard a ++ heard b :=
  List.filterMap_append

@[simp] theorem heard_nil : heard [] = [] := rfl

@[simp] theorem heard_event (e : Event) (pos : Pos) (more : List Emission) :
    heard (.event e pos :: more) = e :: heard more := rfl

@[simp] theorem heard_note (record : LogRecord) (more : List Emission) :
    heard (.note record :: more) = heard more := rfl

namespace Reader

variable {α β : Type}

/-- The step succeeds on the tokens with a value, reports the events and leaves the rest. -/
def Reads (r : Recorder α) (eof : Token) (tokens : List Token) (events : List Event) (a : α)
    (rest : List Token) : Prop :=
  ∃ emitted, r eof tokens = ⟨emitted, .ok (a, rest)⟩ ∧ heard emitted = events

section basic

variable {eof : Token} {tokens rest : List Token} {events : List Event}

@[simp] theorem reads_pure {a b : α} :
    (pure a : Recorder α).Reads eof tokens events b rest ↔ events = [] ∧ b = a ∧ rest = tokens := by
  constructor
  · rintro ⟨_, h, rfl⟩
    cases h
    exact ⟨rfl, rfl, rfl⟩
  · rintro ⟨rfl, rfl, rfl⟩
    exact ⟨[], rfl, rfl⟩

/-- Two steps read what can be divided into what the first reads and what the second reads after it.
-/
theorem reads_bind {x : Recorder α} {f : α → Recorder β} {b : β} :
    (x >>= f).Reads eof tokens events b rest ↔
      ∃ first a middle second, x.Reads eof tokens first a middle ∧
        (f a).Reads eof middle second b rest ∧ events = first ++ second := by
  constructor
  · rintro ⟨emitted, h, rfl⟩
    rw [bind_eq] at h
    cases hx : x eof tokens with
    | mk first outcome =>
        cases outcome with
        | error e =>
            rw [hx] at h
            cases h
        | ok result =>
            obtain ⟨a, middle⟩ := result
            rw [hx] at h
            cases hf : f a eof middle with
            | mk second outcome =>
                simp only [hf, Recorded.mk.injEq] at h
                obtain ⟨rfl, rfl⟩ := h
                exact ⟨_, a, middle, _, ⟨first, hx, rfl⟩, ⟨second, hf, rfl⟩, heard_append _ _⟩
  · rintro ⟨_, a, middle, _, ⟨first, hx, rfl⟩, ⟨second, hf, rfl⟩, rfl⟩
    refine ⟨first ++ second, ?_, heard_append _ _⟩
    rw [bind_eq, hx]
    simp only [hf]

theorem reads_bind_pure {x : Recorder α} {f : α → β} {b : β} :
    (x >>= fun a => pure (f a)).Reads eof tokens events b rest ↔
      ∃ a, x.Reads eof tokens events a rest ∧ b = f a := by
  rw [reads_bind]
  constructor
  · rintro ⟨first, a, _, _, hx, hPure, rfl⟩
    obtain ⟨rfl, rfl, rfl⟩ := reads_pure.mp hPure
    rw [List.append_nil]
    exact ⟨a, hx, rfl⟩
  · rintro ⟨a, hx, rfl⟩
    exact ⟨events, a, rest, [], hx, reads_pure.mpr ⟨rfl, rfl, rfl⟩, (List.append_nil _).symm⟩

/-- A step that depends on a test reads what one of the two ways reads, according to the test. -/
@[simp] theorem reads_ite {c : Prop} [Decidable c] {x y : Recorder α} {a : α} :
    (if c then x else y).Reads eof tokens events a rest ↔
      c ∧ x.Reads eof tokens events a rest ∨ ¬c ∧ y.Reads eof tokens events a rest := by
  by_cases h : c <;> simp [h]

@[simp] theorem reads_note {record : LogRecord} {u : Unit} :
    (note record).Reads eof tokens events u rest ↔ events = [] ∧ rest = tokens := by
  constructor
  · rintro ⟨_, h, rfl⟩
    cases h
    exact ⟨rfl, rfl⟩
  · rintro ⟨rfl, rfl⟩
    exact ⟨_, rfl, rfl⟩

/-- A report takes no token. -/
@[simp] theorem reads_emit {e : Event} {pos : Pos} {u : Unit} :
    (emit e pos).Reads eof tokens events u rest ↔ events = [e] ∧ rest = tokens := by
  constructor
  · rintro ⟨_, h, rfl⟩
    cases h
    exact ⟨rfl, rfl⟩
  · rintro ⟨rfl, rfl⟩
    exact ⟨_, rfl, rfl⟩

/-- A step that ends in an error reads nothing. -/
@[simp] theorem reads_fail {e : SyntaxError} {a : α} :
    (fail e : Recorder α).Reads eof tokens events a rest ↔ False := by
  refine iff_false_intro fun h => ?_
  obtain ⟨_, h, -⟩ := h
  cases h

/-- Looking at the next token takes nothing, so that the rest is read from the same tokens. -/
@[simp] theorem reads_current_bind {f : Token → Recorder β} {b : β} :
    (current >>= f).Reads eof tokens events b rest ↔
      (f (tokens.headD eof)).Reads eof tokens events b rest :=
  Iff.rfl

@[simp] theorem reads_following_bind {f : Token → Recorder β} {b : β} :
    (following >>= f).Reads eof tokens events b rest ↔
      (f (tokens.tail.headD eof)).Reads eof tokens events b rest :=
  Iff.rfl

@[simp] theorem reads_advance {t : Token} :
    advance.Reads eof tokens events t rest ↔
      events = [] ∧ t = tokens.headD eof ∧ rest = tokens.tail := by
  constructor
  · rintro ⟨_, h, rfl⟩
    cases h
    exact ⟨rfl, rfl, rfl⟩
  · rintro ⟨rfl, rfl, rfl⟩
    exact ⟨[], rfl, rfl⟩

@[simp] theorem reads_advance_bind {f : Token → Recorder β} {b : β} :
    (advance >>= f).Reads eof tokens events b rest ↔
      (f (tokens.headD eof)).Reads eof tokens.tail events b rest :=
  Iff.rfl

@[simp] theorem reads_note_bind {record : LogRecord} {f : Unit → Recorder β} {b : β} :
    (note record >>= f).Reads eof tokens events b rest ↔
      (f ()).Reads eof tokens events b rest := by
  constructor
  · intro h
    obtain ⟨_, _, _, _, hNote, hf, rfl⟩ := reads_bind.mp h
    obtain ⟨rfl, rfl⟩ := reads_note.mp hNote
    exact hf
  · intro hf
    exact reads_bind.mpr ⟨[], (), tokens, events, reads_note.mpr ⟨rfl, rfl⟩, hf, rfl⟩

/-- A report in front is the first event of what is read. -/
@[simp] theorem reads_emit_bind {e : Event} {pos : Pos} {f : Unit → Recorder β} {b : β} :
    (emit e pos >>= f).Reads eof tokens events b rest ↔
      ∃ more, (f ()).Reads eof tokens more b rest ∧ events = e :: more := by
  constructor
  · intro h
    obtain ⟨_, _, _, more, hEmit, hf, rfl⟩ := reads_bind.mp h
    obtain ⟨rfl, rfl⟩ := reads_emit.mp hEmit
    exact ⟨more, hf, rfl⟩
  · rintro ⟨more, hf, rfl⟩
    exact reads_bind.mpr ⟨[e], (), tokens, more, reads_emit.mpr ⟨rfl, rfl⟩, hf, rfl⟩

/-- Strings in a row are taken to the last one, and their values put together. -/
@[simp] theorem reads_strings {text : Text} :
    strings.Reads eof tokens events text rest ↔
      events = [] ∧ text = (tokens.takeWhile (·.kind = .string)).flatMap Token.value ∧
        rest = tokens.dropWhile (·.kind = .string) := by
  constructor
  · rintro ⟨_, h, rfl⟩
    cases h
    exact ⟨rfl, rfl, rfl⟩
  · rintro ⟨rfl, rfl, rfl⟩
    exact ⟨[], rfl, rfl⟩

@[simp] theorem reads_unexpected {context : Construct} {expected : List TokenKind} {a : α} :
    (unexpected context expected : Recorder α).Reads eof tokens events a rest ↔ False := by
  simp [unexpected]

@[simp] theorem reads_enter_bind {rule : String} {token : Token} {f : Unit → Recorder β} {b : β} :
    (enter rule token >>= f).Reads eof tokens events b rest ↔
      (f ()).Reads eof tokens events b rest :=
  reads_note_bind

end basic

section words

variable {eof : Token} {tokens rest : List Token} {events : List Event} {u : Unit}
  {context : Construct} (hEof : eof.kind = .eof)
include hEof

/-- The end token is of no kind that is ever asked for. -/
theorem reads_expect {kind : TokenKind} {t : Token} (hKind : kind ≠ .eof) :
    (expect kind context).Reads eof tokens events t rest ↔
      events = [] ∧ tokens = t :: rest ∧ t.kind = kind := by
  rw [expect, reads_current_bind, reads_ite, reads_unexpected, reads_advance, and_false, or_false]
  cases tokens with
  | nil => simp [hEof, Ne.symm hKind]
  | cons first tokens =>
      simp only [List.headD_cons, List.tail_cons, List.cons.injEq]
      constructor
      · rintro ⟨hFirst, rfl, rfl, rfl⟩
        exact ⟨rfl, ⟨rfl, rfl⟩, hFirst⟩
      · rintro ⟨rfl, ⟨rfl, rfl⟩, hFirst⟩
        exact ⟨hFirst, rfl, rfl, rfl⟩

/-- A required token is the first of those read, and the rest is read after it. -/
theorem reads_expect_bind (kind : TokenKind) (hKind : kind ≠ .eof) {f : Token → Recorder β} {b : β} :
    (expect kind context >>= f).Reads eof tokens events b rest ↔
      ∃ t middle, tokens = t :: middle ∧ t.kind = kind ∧
        (f t).Reads eof middle events b rest := by
  constructor
  · intro h
    obtain ⟨_, t, middle, _, hExpect, hf, rfl⟩ := reads_bind.mp h
    obtain ⟨rfl, hTokens, hToken⟩ := (reads_expect hEof hKind).mp hExpect
    exact ⟨t, middle, hTokens, hToken, hf⟩
  · rintro ⟨t, middle, hTokens, hToken, hf⟩
    exact reads_bind.mpr
      ⟨[], t, middle, events, (reads_expect hEof hKind).mpr ⟨rfl, hTokens, hToken⟩, hf, rfl⟩

/-- A token of any kind but the end's is still there to be taken. -/
theorem cons_of_headD_kind {kind : TokenKind} (h : (tokens.headD eof).kind = kind)
    (hKind : kind ≠ .eof) : ∃ t tail, tokens = t :: tail ∧ t.kind = kind := by
  cases tokens with
  | nil => exact absurd (h.symm.trans hEof) hKind
  | cons t tail => exact ⟨t, tail, rfl, h⟩

/-- At a string, what is taken spells the text in strings. -/
theorem strings_sound {text : Text} (hString : (tokens.headD eof).kind = .string)
    (h : strings.Reads eof tokens events text rest) :
    events = [] ∧ (Spelling.strings text).Takes tokens rest := by
  obtain ⟨rfl, rfl, rfl⟩ := reads_strings.mp h
  obtain ⟨t, tail, rfl, hKind⟩ := cons_of_headD_kind hEof hString (by decide)
  refine ⟨rfl, _, (List.takeWhile_append_dropWhile).symm, ?_, ?_, ?_⟩
  · simp [hKind]
  · intro s hs
    obtain ⟨u, hu, rfl⟩ := List.mem_map.mp hs
    simpa using List.all_eq_true.mp List.all_takeWhile u hu
  · rw [List.flatMap_map]
    rfl

omit hEof in
/-- Strings that spell a text are read as that text, if no further string follows to be put together
with them. -/
theorem strings_complete {text : Text} (h : (Spelling.strings text).Takes tokens rest)
    (hRest : (rest.headD eof).kind ≠ .string) : strings.Reads eof tokens [] text rest := by
  obtain ⟨used, rfl, _, hKind, rfl⟩ := h
  have hUsed : ∀ t ∈ used, decide (t.kind = .string) = true := by
    intro t ht
    exact decide_eq_true (hKind t.symbol (List.mem_map_of_mem ht))
  have hStop : rest.takeWhile (·.kind = .string) = [] ∧
      rest.dropWhile (·.kind = .string) = rest := by
    cases rest with
    | nil => exact ⟨rfl, rfl⟩
    | cons t tail =>
        have hOther : t.kind ≠ .string := hRest
        simp [hOther]
  refine reads_strings.mpr ⟨rfl, ?_, ?_⟩
  · rw [List.takeWhile_append_of_pos hUsed, hStop.1, List.append_nil, List.flatMap_map]
    rfl
  · rw [List.dropWhile_append_of_pos hUsed, hStop.2]

omit hEof in
/-- Strings start with a string. -/
theorem headD_kind_of_strings {text : Text} (h : (Spelling.strings text).Takes tokens rest) :
    (tokens.headD eof).kind = .string := by
  obtain ⟨used, rfl, hUsed, hKind, _⟩ := h
  cases used with
  | nil => exact absurd rfl hUsed
  | cons t tail => exact hKind t.symbol (List.mem_map_of_mem List.mem_cons_self)

/-- What is read as a word is spelt by a name or by strings, and nothing is reported. -/
theorem word_sound {text : Text} (h : (word context).Reads eof tokens events text rest) :
    events = [] ∧ (Spelling.word text).Takes tokens rest := by
  rw [word, reads_current_bind] at h
  cases hKind : (tokens.headD eof).kind with
  | string =>
      rw [hKind] at h
      obtain ⟨rfl, used, hTokens, hStrings⟩ := strings_sound hEof hKind h
      exact ⟨rfl, used, hTokens, Or.inr hStrings⟩
  | name =>
      obtain ⟨t, tail, rfl, hName⟩ := cons_of_headD_kind hEof hKind (by decide)
      rw [hKind] at h
      dsimp only at h
      rw [reads_advance_bind, reads_pure] at h
      obtain ⟨rfl, rfl, rfl⟩ := h
      exact ⟨rfl, [t], rfl, Or.inl ⟨_, rfl, hName, rfl⟩⟩
  | _ =>
      rw [hKind] at h
      exact absurd h (by simp)

omit hEof in
/-- A word is read wherever one is spelt, as long as no further string comes behind it. -/
theorem word_complete {text : Text} (h : (Spelling.word text).Takes tokens rest)
    (hRest : (rest.headD eof).kind ≠ .string) : (word context).Reads eof tokens [] text rest := by
  rw [word, reads_current_bind]
  obtain ⟨used, hTokens, hName | hStrings⟩ := h
  · obtain ⟨t, rfl, hKind, rfl⟩ := Spelling.takes_name.mp ⟨used, hTokens, hName⟩
    rw [List.headD_cons, hKind]
    dsimp only
    rw [reads_advance_bind, reads_pure]
    exact ⟨rfl, rfl, rfl⟩
  · have hTakes : (Spelling.strings text).Takes tokens rest := ⟨used, hTokens, hStrings⟩
    rw [headD_kind_of_strings hTakes]
    exact strings_complete hTakes hRest

/-- What is read as a label is spelt by one word of any sort or by strings. -/
theorem label_sound {text : Text} (h : (label context).Reads eof tokens events text rest) :
    events = [] ∧ (Spelling.label text).Takes tokens rest := by
  rw [label, reads_current_bind, reads_ite, reads_ite] at h
  rcases h with ⟨hWord, h⟩ | ⟨_, ⟨hString, h⟩ | ⟨_, h⟩⟩
  · have hKind : (tokens.headD eof).kind ≠ .eof := by
      intro hKind
      rw [hKind] at hWord
      cases hWord
    obtain ⟨t, tail, rfl, _⟩ := cons_of_headD_kind hEof rfl hKind
    rw [reads_advance_bind, reads_pure] at h
    obtain ⟨rfl, rfl, rfl⟩ := h
    exact ⟨rfl, [t], rfl, Or.inl ⟨_, rfl, hWord, rfl⟩⟩
  · obtain ⟨rfl, used, hTokens, hStrings⟩ := strings_sound hEof hString h
    exact ⟨rfl, used, hTokens, Or.inr hStrings⟩
  · exact absurd h (by simp)

omit hEof in
/-- A label is read wherever one is spelt, as long as no further string comes behind it. -/
theorem label_complete {text : Text} (h : (Spelling.label text).Takes tokens rest)
    (hRest : (rest.headD eof).kind ≠ .string) : (label context).Reads eof tokens [] text rest := by
  rw [label, reads_current_bind, reads_ite, reads_ite]
  obtain ⟨used, hTokens, hWord | hStrings⟩ := h
  · obtain ⟨t, rfl, hKind, rfl⟩ := Spelling.takes_one.mp ⟨used, hTokens, hWord⟩
    rw [reads_advance_bind, reads_pure]
    exact Or.inl ⟨hKind, rfl, rfl, rfl⟩
  · have hTakes : (Spelling.strings text).Takes tokens rest := ⟨used, hTokens, hStrings⟩
    have hString : (tokens.headD eof).kind = .string := headD_kind_of_strings hTakes
    refine Or.inr ⟨?_, Or.inl ⟨hString, strings_complete hTakes hRest⟩⟩
    rw [hString]
    decide

omit hEof in
/-- A label is never spelled by nothing. -/
theorem length_lt_of_label {text : Text} (h : (Spelling.label text).Takes tokens rest) :
    rest.length < tokens.length := by
  obtain ⟨used, rfl, ⟨s, hUsed, _⟩ | ⟨hUsed, _⟩⟩ := h
  · obtain ⟨t, rfl, _⟩ := List.map_eq_singleton_iff.mp hUsed
    simp
  · cases used with
    | nil => exact absurd rfl hUsed
    | cons t tail =>
        rw [List.length_append, List.length_cons]
        omega

/-- One label, and further labels if a bar follows. -/
theorem reads_labels {event : Text → Event} :
    Reads (labels context event) eof tokens events u rest ↔
      ∃ text middle, (label context).Reads eof tokens [] text middle ∧
        ((middle.headD eof).kind ≠ .bar ∧ rest = middle ∧ events = [event text] ∨
          ∃ bar after more, middle = bar :: after ∧ bar.kind = .bar ∧
            Reads (labels context event) eof after more u rest ∧ events = event text :: more) := by
  -- The check that tokens were used never fails.
  have hLess : ∀ {text : Text} {bar : Token} {after : List Token},
      (Spelling.label text).Takes tokens (bar :: after) → after.length < tokens.length := by
    intro text bar after h
    exact Nat.lt_trans (Nat.lt_succ_self _) (length_lt_of_label h)
  constructor
  · rintro ⟨emitted, h, rfl⟩
    rw [labels_eq] at h
    split at h
    · cases h
    · rename_i first text middle hLabel
      have hReads : (label context).Reads eof tokens (heard first) text middle := ⟨first, hLabel, rfl⟩
      obtain ⟨hFirst, hTakes⟩ := label_sound hEof hReads
      rw [hFirst] at hReads
      refine ⟨text, middle, hReads, ?_⟩
      dsimp only at h
      split at h
      · cases h
        exact Or.inl ⟨by simp [hEof], rfl, by simp [hFirst]⟩
      · rename_i bar after
        rw [if_pos (hLess hTakes)] at h
        split at h
        · rename_i hBar
          obtain ⟨second, hMore⟩ : ∃ e,
              (labels context event : Recorder Unit) eof after = ⟨e, .ok (u, rest)⟩ := by
            cases hLabels : (labels context event : Recorder Unit) eof after with
            | mk e outcome =>
                rw [hLabels] at h
                cases h
                exact ⟨e, rfl⟩
          rw [hMore] at h
          cases h
          exact Or.inr ⟨bar, after, _, rfl, hBar, ⟨_, hMore, rfl⟩, by simp [hFirst]⟩
        · rename_i hBar
          cases h
          exact Or.inl ⟨hBar, rfl, by simp [hFirst]⟩
  · rintro ⟨text, middle, ⟨first, hLabel, hFirst⟩, hMore⟩
    obtain ⟨_, hTakes⟩ := label_sound hEof ⟨first, hLabel, hFirst⟩
    rcases hMore with ⟨hBar, rfl, rfl⟩ | ⟨bar, after, more, rfl, hBar, ⟨e, hLabels, rfl⟩, rfl⟩
    · refine ⟨first ++ [.event (event text) (tokens.headD eof).pos], ?_, by simp [hFirst]⟩
      rw [labels_eq, hLabel]
      cases rest with
      | nil => rfl
      | cons bar after =>
          have hOther : bar.kind ≠ .bar := hBar
          dsimp only
          rw [if_neg hOther]
    · refine ⟨first ++ [.event (event text) (tokens.headD eof).pos] ++ e, ?_, by simp [hFirst]⟩
      rw [labels_eq, hLabel]
      dsimp only
      rw [if_pos hBar, if_pos (hLess hTakes), hLabels]

/-- Labels that are read are spelt one after the other with bars between them, and there is an event
for each. -/
theorem labels_sound {event : Text → Event}
    (h : Reads (labels context event) eof tokens events u rest) :
    ∃ first more, (Spelling.labels first more).Takes tokens rest ∧
      events = (first :: more).map event := by
  induction hLength : tokens.length using Nat.strongRecOn generalizing tokens events with
  | ind length ih =>
      obtain ⟨text, middle, hLabel, hMore⟩ := (reads_labels hEof).mp h
      obtain ⟨_, hTakes⟩ := label_sound hEof hLabel
      rcases hMore with ⟨_, rfl, rfl⟩ | ⟨bar, after, more, rfl, hBar, hRest, rfl⟩
      · exact ⟨text, [], hTakes, rfl⟩
      · have hLess : after.length < length :=
          hLength ▸ Nat.lt_trans (Nat.lt_succ_self _) (length_lt_of_label hTakes)
        obtain ⟨first, more, hTakes', rfl⟩ := ih _ hLess hRest rfl
        refine ⟨text, first :: more, ?_, rfl⟩
        simp only [Spelling.labels, Spelling.takes_next, Spelling.takes_sign]
        exact ⟨_, hTakes, after, ⟨bar, rfl, hBar⟩, hTakes'⟩

/-- Labels are read to the last one when neither a bar nor a string comes behind it. By induction on
the further labels. -/
theorem labels_complete {event : Text → Event} {first : Text} {more : List Text}
    (h : (Spelling.labels first more).Takes tokens rest)
    (hString : (rest.headD eof).kind ≠ .string) (hBar : (rest.headD eof).kind ≠ .bar) :
    Reads (labels context event) eof tokens ((first :: more).map event) u rest := by
  induction more generalizing first tokens with
  | nil =>
      exact (reads_labels hEof).mpr
        ⟨first, rest, label_complete h hString, Or.inl ⟨hBar, rfl, rfl⟩⟩
  | cons second more ih =>
      simp only [Spelling.labels, Spelling.takes_next, Spelling.takes_sign] at h
      obtain ⟨_, hFirst, after, ⟨bar, rfl, hSign⟩, hSecond⟩ := h
      refine (reads_labels hEof).mpr ⟨first, bar :: after, ?_, ?_⟩
      · exact label_complete hFirst (by rw [List.headD_cons, hSign]; decide)
      · exact Or.inr ⟨bar, after, _, rfl, hSign, ih hSecond, rfl⟩

end words

end Reader

end Runsheet
