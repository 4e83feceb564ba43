import Runsheet.Proofs.Script.Constructs

/-! The grammar as a whole. At every place, one step reads one construct and takes at least one
token; by induction on the tokens whatever is read to the end is spelled by a tree, and by induction
on the tree every spelling of it is read. -/
namespace Runsheet

namespace Spelling

variable {tokens rest : List Token}

/-- A symbol in front is a token that is taken. -/
theorem Takes.length_lt {p : Symbol → Prop} {q : Spelling} (h : (next (one p) q).Takes tokens rest) :
    rest.length < tokens.length := by
  simp only [takes_next, takes_one] at h
  obtain ⟨middle, ⟨t, rfl, _⟩, hq⟩ := h
  exact Nat.lt_succ_of_le hq.length_le

/-- Labels take at least one token, so reading goes on with fewer. -/
theorem length_lt_of_labels {first : Text} {more : List Text}
    (h : (labels first more).Takes tokens rest) : rest.length < tokens.length := by
  cases more with
  | nil => exact Reader.length_lt_of_label h
  | cons second more =>
      rw [labels, takes_next] at h
      obtain ⟨middle, hFirst, hMore⟩ := h
      exact Nat.lt_of_le_of_lt hMore.length_le (Reader.length_lt_of_label hFirst)

/-- Labels start with a word or a string. -/
theorem headD_kind_of_labels {first : Text} {more : List Text} (eof : Token)
    (h : (labels first more).Takes tokens rest) : (tokens.headD eof).kind ≠ .semicolon := by
  obtain ⟨middle, hLabel⟩ : ∃ middle, (label first).Takes tokens middle := by
    cases more with
    | nil => exact ⟨rest, h⟩
    | cons second more =>
        rw [labels, takes_next] at h
        obtain ⟨middle, hFirst, _⟩ := h
        exact ⟨middle, hFirst⟩
  rw [takes_label] at hLabel
  rcases hLabel with ⟨t, rfl, hWord, _⟩ | hStrings
  · intro hKind
    rw [List.headD_cons] at hKind
    rw [hKind] at hWord
    cases hWord
  · rw [Reader.headD_kind_of_strings hStrings]
    decide

def caseHead (subject : Text) : Spelling :=
  next (keyword .case) (next (name subject) (sign .colon))

/-- A case statement is its head, its alternatives and one semicolon more. -/
theorem takes_case {subject : Text} {alternatives : Spelling} :
    (case subject alternatives).Takes tokens rest ↔
      ∃ middle stop, (caseHead subject).Takes tokens middle ∧
        alternatives.Takes middle (stop :: rest) ∧ stop.kind = .semicolon := by
  simp only [case, caseHead, takes_next, takes_sign]
  constructor
  · rintro ⟨_, hCase, _, hName, middle, hColon, _, hAlternatives, stop, rfl, hStop⟩
    exact ⟨middle, stop, ⟨_, hCase, _, hName, hColon⟩, hAlternatives, hStop⟩
  · rintro ⟨middle, stop, ⟨_, hCase, _, hName, hColon⟩, hAlternatives, hStop⟩
    exact ⟨_, hCase, _, hName, middle, hColon, _, hAlternatives, stop, rfl, hStop⟩

end Spelling

namespace Place

open Reader

variable {eof : Token} {tokens rest : List Token} {events : List Event} {place outer : Place}
  {subject : Text} (hEof : eof.kind = .eof)
include hEof

/-- A step among the statements reads a whole statement or opens a case statement. -/
theorem statement_sound (h : statements.step.Reads eof tokens events place rest) :
    (∃ s : Statement, s.spelling.Takes tokens rest ∧ events = s.events ∧ place = statements) ∨
      ∃ name, (Spelling.caseHead name).Takes tokens rest ∧ (rest.headD eof).kind ≠ .semicolon ∧
        events = [.beginCase name] ∧ place = alternatives name statements := by
  rw [step, statement, reads_current_bind] at h
  cases hKind : (tokens.headD eof).kind with
  | keyword k =>
      cases k with
      | tool =>
          rw [hKind] at h
          obtain ⟨_, hx, rfl⟩ := reads_bind_pure.mp h
          obtain ⟨name, hTakes, rfl⟩ := (reads_toolStatement hEof hKind).mp hx
          exact Or.inl ⟨.tool name, hTakes, rfl, rfl⟩
      | input =>
          rw [hKind] at h
          dsimp only at h
          rw [reads_following_bind, reads_ite] at h
          rcases h with ⟨hColon, h⟩ | ⟨_, h⟩
          · obtain ⟨_, hx, rfl⟩ := reads_bind_pure.mp h
            obtain ⟨name, hTakes, rfl⟩ := (reads_inputStatement hEof hKind hColon).mp hx
            exact Or.inl ⟨.source name, hTakes, rfl, rfl⟩
          · obtain ⟨_, hx, rfl⟩ := reads_bind_pure.mp h
            obtain ⟨name, first, more, l, hTakes, rfl⟩ := (reads_declaration hEof hKind).mp hx
            exact Or.inl ⟨.axis .input name first more l, hTakes, rfl, rfl⟩
      | choice =>
          rw [hKind] at h
          obtain ⟨_, hx, rfl⟩ := reads_bind_pure.mp h
          obtain ⟨name, first, more, l, hTakes, rfl⟩ := (reads_declaration hEof hKind).mp hx
          exact Or.inl ⟨.axis .choice name first more l, hTakes, rfl, rfl⟩
      | case =>
          rw [hKind] at h
          obtain ⟨name, hx, rfl⟩ := reads_bind_pure.mp h
          obtain ⟨hTakes, hNext, rfl⟩ := (reads_caseHeader hEof hKind).mp hx
          exact Or.inr ⟨name, hTakes, hNext, rfl, rfl⟩
      | select =>
          rw [hKind] at h
          obtain ⟨_, hx, rfl⟩ := reads_bind_pure.mp h
          obtain ⟨choice, label, hTakes, rfl⟩ := (reads_selectStatement hEof hKind).mp hx
          exact Or.inl ⟨.select choice label, hTakes, rfl, rfl⟩
      | every =>
          rw [hKind] at h
          obtain ⟨_, hx, rfl⟩ := reads_bind_pure.mp h
          obtain ⟨choice, hTakes, rfl⟩ := (reads_everyStatement hEof hKind).mp hx
          exact Or.inl ⟨.every choice, hTakes, rfl, rfl⟩
      | default =>
          rw [hKind] at h
          exact absurd h (by simp)
  | option =>
      rw [hKind] at h
      obtain ⟨_, hx, rfl⟩ := reads_bind_pure.mp h
      obtain ⟨name, v, hTakes, rfl⟩ := option_sound hEof hKind hx
      exact Or.inl ⟨.option name v, hTakes, rfl, rfl⟩
  | _ =>
      rw [hKind] at h
      exact absurd h (by simp)

/-- A step among the alternatives ends the case statement or opens an alternative. -/
theorem reads_nextAlternative :
    (alternatives subject outer).step.Reads eof tokens events place rest ↔
      (∃ stop, tokens = stop :: rest ∧ stop.kind = .semicolon ∧ events = [.endCase] ∧
        place = outer) ∨
      ∃ first more, (Spelling.next (.labels first more) (.sign .colon)).Takes tokens rest ∧
        events = .beginAlternative :: labelEvents first more ∧ place = elements subject outer := by
  rw [step, nextAlternative, reads_current_bind, reads_ite, reads_advance_bind, reads_note_bind,
    reads_emit_bind, reads_bind_pure]
  constructor
  · rintro (⟨hStop, _, hPure, rfl⟩ | ⟨_, _, h, rfl⟩)
    · obtain ⟨stop, _, rfl, hStop⟩ := cons_of_headD_kind hEof hStop (by decide)
      obtain ⟨rfl, rfl, rfl⟩ := reads_pure.mp hPure
      exact Or.inl ⟨stop, rfl, hStop, rfl, rfl⟩
    · obtain ⟨first, more, hTakes, rfl⟩ := (reads_alternativeHeader hEof).mp h
      exact Or.inr ⟨first, more, hTakes, rfl, rfl⟩
  · rintro (⟨stop, rfl, hStop, rfl, rfl⟩ | ⟨first, more, hTakes, rfl, rfl⟩)
    · exact Or.inl ⟨hStop, [], reads_pure.mpr ⟨rfl, rfl, rfl⟩, rfl⟩
    · refine Or.inr ⟨?_, (), (reads_alternativeHeader hEof).mpr ⟨first, more, hTakes, rfl⟩, rfl⟩
      obtain ⟨_, hLabels, _⟩ := Spelling.takes_next.mp hTakes
      exact Spelling.headD_kind_of_labels eof hLabels

/-- A step among the elements ends the alternative, reads an option or opens a case statement. -/
theorem element_sound (h : (elements subject outer).step.Reads eof tokens events place rest) :
    (∃ stop, tokens = stop :: rest ∧ stop.kind = .semicolon ∧ events = [.endAlternative] ∧
        place = alternatives subject outer) ∨
      (∃ name v, (Spelling.setting name v).Takes tokens rest ∧
        events = [.addSwitch (.ofOption name v)] ∧ place = elements subject outer) ∨
      ∃ name, (Spelling.caseHead name).Takes tokens rest ∧ (rest.headD eof).kind ≠ .semicolon ∧
        events = [.beginCase name] ∧ place = alternatives name (elements subject outer) := by
  rw [step, element, reads_current_bind] at h
  cases hKind : (tokens.headD eof).kind with
  | semicolon =>
      obtain ⟨stop, _, rfl, hStop⟩ := cons_of_headD_kind hEof hKind (by decide)
      rw [hKind] at h
      dsimp only at h
      rw [reads_advance_bind, reads_emit_bind] at h
      obtain ⟨_, hPure, rfl⟩ := h
      obtain ⟨rfl, rfl, rfl⟩ := reads_pure.mp hPure
      exact Or.inl ⟨stop, rfl, hStop, rfl, rfl⟩
  | option =>
      rw [hKind] at h
      obtain ⟨_, hx, rfl⟩ := reads_bind_pure.mp h
      obtain ⟨name, v, hTakes, rfl⟩ := option_sound hEof hKind hx
      exact Or.inr (Or.inl ⟨name, v, hTakes, rfl, rfl⟩)
  | keyword k =>
      cases k with
      | case =>
          rw [hKind] at h
          obtain ⟨name, hx, rfl⟩ := reads_bind_pure.mp h
          obtain ⟨hTakes, hNext, rfl⟩ := (reads_caseHeader hEof hKind).mp hx
          exact Or.inr (Or.inr ⟨name, hTakes, hNext, rfl, rfl⟩)
      | _ =>
          rw [hKind] at h
          exact absurd h (by simp)
  | _ =>
      rw [hKind] at h
      exact absurd h (by simp)

omit hEof in
/-- The semicolon after an element ends the alternative. -/
theorem element_end {stop : Token} (hStop : stop.kind = .semicolon) :
    (elements subject outer).step.Reads eof (stop :: rest) [.endAlternative] (alternatives subject outer)
      rest := by
  rw [step, element, reads_current_bind, List.headD_cons, hStop]
  dsimp only
  rw [reads_advance_bind, reads_emit_bind]
  exact ⟨[], reads_pure.mpr ⟨rfl, rfl, rfl⟩, rfl⟩

omit hEof in
theorem headD_kind_of_setting {name : Text} {v : Option Text}
    (h : (Spelling.setting name v).Takes tokens rest) : (tokens.headD eof).kind = .option := by
  rw [Spelling.setting, Spelling.takes_next] at h
  obtain ⟨_, hOption, _⟩ := h
  obtain ⟨t, rfl, hKind, _⟩ := Spelling.takes_one.mp hOption
  exact hKind

omit hEof in
/-- An option inside of an alternative is read as anywhere else, and the alternative goes on. -/
theorem element_option {name : Text} {v : Option Text}
    (h : (Spelling.setting name v).Takes tokens rest) (hClear : Clear eof rest) :
    (elements subject outer).step.Reads eof tokens [.addSwitch (.ofOption name v)]
      (elements subject outer) rest := by
  rw [step, element, reads_current_bind, headD_kind_of_setting h]
  exact reads_bind_pure.mpr ⟨(), option_complete h hClear, rfl⟩

/-- A case statement inside of an alternative goes one level deeper. Reading comes back to the
alternative at its end. -/
theorem element_case {name : Text} (h : (Spelling.caseHead name).Takes tokens rest)
    (hNext : (rest.headD eof).kind ≠ .semicolon) :
    (elements subject outer).step.Reads eof tokens [.beginCase name]
      (alternatives name (elements subject outer)) rest := by
  have hCase : (tokens.headD eof).kind = .keyword .case := headD_kind_of_keyword h
  rw [step, element, reads_current_bind, hCase]
  exact reads_bind_pure.mpr ⟨name, (reads_caseHeader hEof hCase).mpr ⟨h, hNext, rfl⟩, rfl⟩

/-- A case statement among statements is read like one inside of an alternative, but leads back to
the statements. -/
theorem statement_case {name : Text} (h : (Spelling.caseHead name).Takes tokens rest)
    (hNext : (rest.headD eof).kind ≠ .semicolon) :
    statements.step.Reads eof tokens [.beginCase name] (alternatives name statements) rest := by
  have hCase : (tokens.headD eof).kind = .keyword .case := headD_kind_of_keyword h
  rw [step, statement, reads_current_bind, hCase]
  exact reads_bind_pure.mpr ⟨name, (reads_caseHeader hEof hCase).mpr ⟨h, hNext, rfl⟩, rfl⟩

variable (eof) in
omit hEof in
/-- The two tokens in front tell a declaration from everything else that may stand there. -/
theorem kinds_of_declaration {kind : AxisKind} {name first : Text} {more : List Text}
    {l : Option Text} (h : (Spelling.declaration kind name first more l).Takes tokens rest) :
    (tokens.headD eof).kind = .keyword (Spelling.axisKeyword kind) ∧
      (tokens.tail.headD eof).kind = .name := by
  simp only [Spelling.declaration, Spelling.takes_next, Spelling.takes_keyword,
    Spelling.takes_name] at h
  obtain ⟨_, ⟨start, rfl, hStart⟩, _, ⟨word, rfl, hWord, _⟩, _⟩ := h
  exact ⟨hStart, hWord⟩

variable (eof) in
omit hEof in
/-- The statements that name a tool or a source have a colon as their second token, which a
declaration never has. -/
theorem kinds_of_named {k : Keyword} {name : Text} (h : (Spelling.named k name).Takes tokens rest) :
    (tokens.headD eof).kind = .keyword k ∧ (tokens.tail.headD eof).kind = .colon := by
  simp only [Spelling.named, Spelling.takes_next, Spelling.takes_keyword, Spelling.takes_sign] at h
  obtain ⟨_, ⟨start, rfl, hStart⟩, _, ⟨colon, rfl, hColon⟩, _⟩ := h
  exact ⟨hStart, hColon⟩

/-- Every statement but a case statement is read in one step. -/
theorem statement_complete {s : Statement} (hSimple : ∀ name a, s ≠ .case name a)
    (h : s.spelling.Takes tokens rest) (hClear : Clear eof rest) :
    statements.step.Reads eof tokens s.events statements rest := by
  rw [step, statement, reads_current_bind]
  cases s with
  | tool name =>
      have hStart : (tokens.headD eof).kind = .keyword .tool := headD_kind_of_keyword h
      rw [hStart]
      exact reads_bind_pure.mpr ⟨(), (reads_toolStatement hEof hStart).mpr ⟨name, h, rfl⟩, rfl⟩
  | source name =>
      obtain ⟨hStart, hColon⟩ := kinds_of_named eof h
      rw [hStart]
      dsimp only
      rw [reads_following_bind, reads_ite]
      exact Or.inl ⟨hColon, reads_bind_pure.mpr
        ⟨(), (reads_inputStatement hEof hStart hColon).mpr ⟨name, h, rfl⟩, rfl⟩⟩
  | axis kind name first more l =>
      obtain ⟨hStart, hName⟩ := kinds_of_declaration eof h
      have hRead := (reads_declaration (u := ()) hEof hStart).mpr ⟨name, first, more, l, h, rfl⟩
      rw [hStart]
      cases kind with
      | choice => exact reads_bind_pure.mpr ⟨(), hRead, rfl⟩
      | input =>
          dsimp only [Spelling.axisKeyword]
          rw [reads_following_bind, reads_ite]
          refine Or.inr ⟨?_, reads_bind_pure.mpr ⟨(), hRead, rfl⟩⟩
          rw [hName]
          decide
  | option name v =>
      rw [headD_kind_of_setting h]
      exact reads_bind_pure.mpr ⟨(), option_complete h hClear, rfl⟩
  | case name a => exact absurd rfl (hSimple name a)
  | select choice label =>
      have hStart : (tokens.headD eof).kind = .keyword .select := headD_kind_of_keyword h
      rw [hStart]
      exact reads_bind_pure.mpr
        ⟨(), (reads_selectStatement hEof hStart).mpr ⟨choice, label, h, rfl⟩, rfl⟩
  | every choice =>
      have hStart : (tokens.headD eof).kind = .keyword .every := headD_kind_of_keyword h
      rw [hStart]
      exact reads_bind_pure.mpr ⟨(), (reads_everyStatement hEof hStart).mpr ⟨choice, h, rfl⟩, rfl⟩

omit hEof in
/-- Every statement takes a token at least. -/
theorem length_lt_of_statement {s : Statement} (h : s.spelling.Takes tokens rest) :
    rest.length < tokens.length := by
  cases s <;> exact Spelling.Takes.length_lt h

/-- Every step takes at least one token. -/
theorem step_length_lt {start : Place} (h : start.step.Reads eof tokens events place rest) :
    rest.length < tokens.length := by
  cases start with
  | statements =>
      rcases statement_sound hEof h with ⟨s, hTakes, _⟩ | ⟨name, hTakes, _⟩
      · exact length_lt_of_statement hTakes
      · exact hTakes.length_lt
  | alternatives subject outer =>
      rcases (reads_nextAlternative hEof).mp h with ⟨stop, rfl, _⟩ | ⟨first, more, hTakes, _⟩
      · exact Nat.lt_succ_self _
      · obtain ⟨middle, hLabels, hColon⟩ := Spelling.takes_next.mp hTakes
        exact Nat.lt_of_le_of_lt hColon.length_le (Spelling.length_lt_of_labels hLabels)
  | elements subject outer =>
      rcases element_sound hEof h with ⟨stop, rfl, _⟩ | ⟨name, v, hTakes, _⟩ | ⟨name, hTakes, _⟩
      · exact Nat.lt_succ_self _
      · exact hTakes.length_lt
      · exact hTakes.length_lt

end Place

namespace Parse

open Reader

variable {eof : Token} {tokens rest : List Token} {events first second : List Event}
  {place place' outer : Place} {subject : Text}

/-- The tokens are read to their end from a place, with these events. -/
def Accepts (eof : Token) (place : Place) (tokens : List Token) (events : List Event) : Prop :=
  (fromPlace eof place tokens).failure = none ∧ heard (fromPlace eof place tokens).emitted = events

theorem accepts_end : Accepts eof .statements [] [.endScript] := by
  rw [Accepts, fromPlace_eq, if_pos ⟨rfl, rfl⟩]
  exact ⟨rfl, rfl⟩

variable (hEof : eof.kind = .eof)
include hEof

/-- Reading from a place goes on from where a step led. -/
theorem fromPlace_of_reads {emitted : List Emission}
    (h : place.step eof tokens = (⟨emitted, .ok (place', rest)⟩ : Reading Place)) :
    fromPlace eof place tokens = (fromPlace eof place' rest).after emitted := by
  have hLess : rest.length < tokens.length := Place.step_length_lt hEof ⟨emitted, h, rfl⟩
  have hMore : ¬(place = .statements ∧ tokens = []) := by
    rintro ⟨_, rfl⟩
    cases hLess
  rw [fromPlace_eq, if_neg hMore, h]
  dsimp only
  rw [if_pos hLess]

/-- One construct is read and then whatever is accepted from the place behind it. -/
theorem Accepts.step (h : place.step.Reads eof tokens first place' rest)
    (hRest : Accepts eof place' rest second) : Accepts eof place tokens (first ++ second) := by
  obtain ⟨emitted, hStep, rfl⟩ := h
  obtain ⟨hFailure, rfl⟩ := hRest
  rw [Accepts, fromPlace_of_reads hEof hStep]
  exact ⟨hFailure, heard_append _ _⟩

/-- What is accepted ends right there, which is possible among statements only, or starts with one
more construct. -/
theorem accepts_cases (h : Accepts eof place tokens events) :
    (place = .statements ∧ tokens = [] ∧ events = [.endScript]) ∨
      ∃ first place' rest second, place.step.Reads eof tokens first place' rest ∧
        Accepts eof place' rest second ∧ events = first ++ second := by
  by_cases hEnd : place = .statements ∧ tokens = []
  · obtain ⟨rfl, rfl⟩ := hEnd
    exact Or.inl ⟨rfl, rfl, h.2.symm.trans accepts_end.2⟩
  · obtain ⟨hFailure, rfl⟩ := h
    cases hStep : (place.step : Recorder Place) eof tokens with
    | mk emitted outcome =>
        cases outcome with
        | error e =>
            rw [fromPlace_eq, if_neg hEnd, hStep] at hFailure
            cases hFailure
        | ok result =>
            obtain ⟨place', rest⟩ := result
            rw [fromPlace_of_reads hEof hStep] at hFailure ⊢
            exact Or.inr ⟨_, place', rest, _, ⟨emitted, hStep, rfl⟩, ⟨hFailure, rfl⟩,
              heard_append _ _⟩

/-- Reading never comes to a halt without an error in the script. -/
theorem fromPlace_failure (place : Place) (tokens : List Token) :
    (fromPlace eof place tokens).failure = none ∨
      ∃ e, (fromPlace eof place tokens).failure = some (.syntaxError e) := by
  induction hLength : tokens.length using Nat.strongRecOn generalizing place tokens with
  | ind length ih =>
      by_cases hEnd : place = .statements ∧ tokens = []
      · rw [fromPlace_eq, if_pos hEnd]
        exact Or.inl rfl
      · cases hStep : (place.step : Recorder Place) eof tokens with
        | mk emitted outcome =>
            cases outcome with
            | error e =>
                rw [fromPlace_eq, if_neg hEnd, hStep]
                exact Or.inr ⟨e, rfl⟩
            | ok result =>
                obtain ⟨place', rest⟩ := result
                have hLess : rest.length < tokens.length :=
                  Place.step_length_lt hEof ⟨emitted, hStep, rfl⟩
                rw [fromPlace_of_reads hEof hStep]
                exact ih _ (hLength ▸ hLess) place' rest rfl

section soundness

omit hEof

/-- The alternatives of a case statement that are still to come, if any, and what follows it. -/
def CaseRemains (after : List Token → List Event → Prop) (tokens : List Token)
    (events : List Event) : Prop :=
  (∃ stop rest more, tokens = stop :: rest ∧ stop.kind = .semicolon ∧ after rest more ∧
    events = .endCase :: more) ∨
  ∃ (a : Alternatives) (stop : Token) (rest : List Token) (more : List Event),
    a.spelling.Takes tokens (stop :: rest) ∧ stop.kind = .semicolon ∧ after rest more ∧
      events = a.events ++ .endCase :: more

/-- The elements of an alternative that are still to come, and what follows it. -/
def AlternativeRemains (after : List Token → List Event → Prop) (tokens : List Token)
    (events : List Event) : Prop :=
  ∃ (b : Body) (stop : Token) (rest : List Token) (more : List Event),
    b.spelling.Takes tokens (stop :: rest) ∧ stop.kind = .semicolon ∧ after rest more ∧
      events = b.events ++ .endAlternative :: more

/-- What is still to come at a place. -/
def Remains : Place → List Token → List Event → Prop
  | .statements => fun tokens events => ∃ script, (scriptSpelling script).Takes tokens [] ∧
      events = script.flatMap Statement.events ++ [.endScript]
  | .alternatives _ outer => CaseRemains (Remains outer)
  | .elements _ outer => AlternativeRemains (CaseRemains (Remains outer))

/-- A case statement whose first alternative is there. -/
theorem CaseRemains.alternatives {after : List Token → List Event → Prop}
    (h : CaseRemains after tokens events) (hNext : (tokens.headD eof).kind ≠ .semicolon) :
    ∃ (a : Alternatives) (stop : Token) (rest : List Token) (more : List Event),
      a.spelling.Takes tokens (stop :: rest) ∧ stop.kind = .semicolon ∧ after rest more ∧
        events = a.events ++ .endCase :: more := by
  rcases h with ⟨stop, rest, more, rfl, hStop, _⟩ | h
  · exact absurd hStop hNext
  · exact h

/-- An alternative in front of those that are still to come. -/
theorem AlternativeRemains.toCaseRemains {after : List Token → List Event → Prop} {label : Text}
    {labels : List Text}
    (h : (Spelling.next (.labels label labels) (.sign .colon)).Takes tokens rest)
    (hRest : AlternativeRemains (CaseRemains after) rest events) :
    CaseRemains after tokens (.beginAlternative :: labelEvents label labels ++ events) := by
  obtain ⟨b, stop, rest', more, hBody, hStop, hMore, rfl⟩ := hRest
  have hAlternative : (Spelling.alternative label labels b.spelling).Takes tokens rest' := by
    simp only [Spelling.alternative, Spelling.takes_next, Spelling.takes_sign] at h ⊢
    obtain ⟨_, hLabels, hColon⟩ := h
    exact ⟨_, hLabels, _, hColon, _, hBody, stop, rfl, hStop⟩
  rcases hMore with ⟨last, rest'', more, rfl, hLast, hAfter, rfl⟩ |
    ⟨a, last, rest'', more, hSpelled, hLast, hAfter, rfl⟩
  · refine Or.inr ⟨.last label labels b, last, rest'', more, hAlternative, hLast, hAfter, ?_⟩
    simp [Alternatives.events]
  · refine Or.inr ⟨.cons label labels b a, last, rest'', more, ?_, hLast, hAfter, ?_⟩
    · rw [Alternatives.spelling, Spelling.takes_next]
      exact ⟨rest', hAlternative, hSpelled⟩
    · simp [Alternatives.events]

include hEof

/-- Whatever is read to its end is spelled by a tree and has its events. -/
theorem Accepts.remains (h : Accepts eof place tokens events) : Remains place tokens events := by
  induction hLength : tokens.length using Nat.strongRecOn generalizing place tokens events with
  | ind length ih =>
      rcases accepts_cases hEof h with ⟨rfl, rfl, rfl⟩ | ⟨_, place', rest, _, hStep, hRest, rfl⟩
      · exact ⟨[], Spelling.takes_empty.mpr rfl, rfl⟩
      · have hLess : rest.length < tokens.length := Place.step_length_lt hEof hStep
        have hRemains := ih _ (hLength ▸ hLess) hRest rfl
        cases place with
        | statements =>
            rcases Place.statement_sound hEof hStep with ⟨s, hTakes, rfl, rfl⟩ |
              ⟨name, hHead, hNext, rfl, rfl⟩
            · obtain ⟨script, hScript, rfl⟩ := hRemains
              refine ⟨s :: script, ?_, by simp⟩
              rw [scriptSpelling, Spelling.takes_next]
              exact ⟨rest, hTakes, hScript⟩
            · obtain ⟨a, stop, rest', _, hSpelled, hStop, ⟨script, hScript, rfl⟩, rfl⟩ :=
                CaseRemains.alternatives hRemains hNext
              refine ⟨.case name a :: script, ?_, by simp [Statement.events]⟩
              rw [scriptSpelling, Spelling.takes_next]
              exact ⟨rest', Spelling.takes_case.mpr ⟨rest, stop, hHead, hSpelled, hStop⟩, hScript⟩
        | alternatives subject outer =>
            rcases (Place.reads_nextAlternative hEof).mp hStep with ⟨stop, rfl, hStop, rfl, rfl⟩ |
              ⟨label, labels, hTakes, rfl, rfl⟩
            · exact Or.inl ⟨stop, rest, _, rfl, hStop, hRemains, rfl⟩
            · exact AlternativeRemains.toCaseRemains hTakes hRemains
        | elements subject outer =>
            rcases Place.element_sound hEof hStep with ⟨stop, rfl, hStop, rfl, rfl⟩ |
              ⟨name, v, hTakes, rfl, rfl⟩ | ⟨name, hHead, hNext, rfl, rfl⟩
            · exact ⟨.nil, stop, rest, _, Spelling.takes_empty.mpr rfl, hStop, hRemains, rfl⟩
            · obtain ⟨b, stop, rest', more, hBody, hStop, hMore, rfl⟩ := hRemains
              refine ⟨.option name v b, stop, rest', more, ?_, hStop, hMore, rfl⟩
              rw [Body.spelling, Spelling.takes_next]
              exact ⟨rest, hTakes, hBody⟩
            · obtain ⟨a, last, rest', _, hSpelled, hLast, hBody, rfl⟩ :=
                CaseRemains.alternatives hRemains hNext
              obtain ⟨b, stop, rest'', more, hBody, hStop, hMore, rfl⟩ := hBody
              refine ⟨.case name a b, stop, rest'', more, ?_, hStop, hMore, by simp [Body.events]⟩
              rw [Body.spelling, Spelling.takes_next]
              exact ⟨rest', Spelling.takes_case.mpr ⟨rest, last, hHead, hSpelled, hLast⟩, hBody⟩

end soundness

section completeness

omit hEof

theorem clear_of_caseHead {name : Text} (h : (Spelling.caseHead name).Takes tokens rest) :
    Clear eof tokens := by
  simp only [Spelling.caseHead, Spelling.takes_next, Spelling.takes_keyword,
    Spelling.takes_name] at h
  obtain ⟨_, ⟨start, rfl, hStart⟩, _, ⟨word, rfl, hWord, _⟩, _⟩ := h
  exact Or.inr (Or.inr (Or.inr ⟨.case, hStart, (by decide), Or.inr hWord⟩))

/-- A case statement starts with a reserved word that no option takes for its value. -/
theorem clear_of_case {name : Text} {alternatives : Spelling}
    (h : (Spelling.case name alternatives).Takes tokens rest) : Clear eof tokens := by
  obtain ⟨_, _, hHead, _⟩ := Spelling.takes_case.mp h
  exact clear_of_caseHead hHead

/-- An option is clear of the elements that come after it. -/
theorem clear_of_body {b : Body} {stop : Token} (h : b.spelling.Takes tokens (stop :: rest))
    (hStop : stop.kind = .semicolon) : Clear eof tokens := by
  cases b with
  | nil =>
      obtain rfl := Spelling.takes_empty.mp h
      exact Or.inr (Or.inl hStop)
  | option name v b =>
      obtain ⟨_, hSetting, _⟩ := Spelling.takes_next.mp h
      exact Or.inl (Place.headD_kind_of_setting hSetting)
  | case name a b =>
      obtain ⟨_, hCase, _⟩ := Spelling.takes_next.mp h
      exact clear_of_case hCase

include hEof

/-- An option is clear of the statements that come after it. -/
theorem clear_of_script {script : List Statement} (h : (scriptSpelling script).Takes tokens []) :
    Clear eof tokens := by
  cases script with
  | nil =>
      obtain rfl := Spelling.takes_empty.mp h
      exact Or.inr (Or.inr (Or.inl hEof))
  | cons s script =>
      obtain ⟨middle, hStatement, _⟩ := Spelling.takes_next.mp h
      cases s with
      | tool name | source name =>
          obtain ⟨hStart, hColon⟩ := Place.kinds_of_named eof hStatement
          exact Or.inr (Or.inr (Or.inr ⟨_, hStart, (by decide), Or.inl hColon⟩))
      | axis kind name first more l =>
          obtain ⟨hStart, hName⟩ := Place.kinds_of_declaration eof hStatement
          refine Or.inr (Or.inr (Or.inr ⟨_, hStart, ?_, Or.inr hName⟩))
          cases kind <;> decide
      | option name v => exact Or.inl (Place.headD_kind_of_setting hStatement)
      | case name a => exact clear_of_case hStatement
      | select choice label | every choice =>
          simp only [Statement.spelling, Spelling.select, Spelling.every, Spelling.takes_next,
            Spelling.takes_keyword, Spelling.takes_name] at hStatement
          obtain ⟨_, ⟨start, rfl, hStart⟩, _, ⟨word, rfl, hWord, _⟩, _⟩ := hStatement
          exact Or.inr (Or.inr (Or.inr ⟨_, hStart, (by decide), Or.inr hWord⟩))

variable (eof) in
omit hEof in
/-- The first alternative of a case statement does not start with a semicolon. -/
theorem headD_kind_of_alternatives {a : Alternatives} (h : a.spelling.Takes tokens rest) :
    (tokens.headD eof).kind ≠ .semicolon := by
  cases a with
  | last label labels b =>
      obtain ⟨_, hLabels, _⟩ := Spelling.takes_next.mp h
      exact Spelling.headD_kind_of_labels eof hLabels
  | cons label labels b a =>
      obtain ⟨_, hAlternative, _⟩ := Spelling.takes_next.mp h
      obtain ⟨_, hLabels, _⟩ := Spelling.takes_next.mp hAlternative
      exact Spelling.headD_kind_of_labels eof hLabels

/-- An alternative is read before what its body leads to. -/
theorem Accepts.alternative (subject : Text) {label : Text} {labels : List Text}
    {body : Spelling} {more : List Event}
    (h : (Spelling.alternative label labels body).Takes tokens rest)
    (hBody : ∀ {middle stop}, body.Takes middle (stop :: rest) → stop.kind = .semicolon →
      Accepts eof (.elements subject outer) middle more) :
    Accepts eof (.alternatives subject outer) tokens
      (.beginAlternative :: labelEvents label labels ++ more) := by
  simp only [Spelling.alternative, Spelling.takes_next, Spelling.takes_sign] at h
  obtain ⟨_, hLabels, middle, hColon, _, hMiddle, stop, rfl, hStop⟩ := h
  refine Accepts.step hEof ?_ (hBody hMiddle hStop)
  refine (Place.reads_nextAlternative hEof).mpr (Or.inr ⟨label, labels, ?_, rfl, rfl⟩)
  simp only [Spelling.takes_next, Spelling.takes_sign]
  exact ⟨_, hLabels, hColon⟩

/-- The end of a case statement. -/
theorem Accepts.endCase (subject : Text) {stop : Token} {more : List Event}
    (hStop : stop.kind = .semicolon) (hRest : Accepts eof outer rest more) :
    Accepts eof (.alternatives subject outer) (stop :: rest) (.endCase :: more) :=
  Accepts.step hEof ((Place.reads_nextAlternative hEof).mpr (Or.inl ⟨stop, rfl, hStop, rfl, rfl⟩))
    hRest

mutual

/-- The elements of an alternative are accepted one after the other, and its semicolon leads to the
next alternative. By induction on the elements. -/
theorem accepts_body (b : Body) (subject : Text) (outer : Place) {tokens rest : List Token}
    {stop : Token} {more : List Event} (h : b.spelling.Takes tokens (stop :: rest))
    (hStop : stop.kind = .semicolon) (hRest : Accepts eof (.alternatives subject outer) rest more) :
    Accepts eof (.elements subject outer) tokens (b.events ++ .endAlternative :: more) := by
  match b with
  | .nil =>
      obtain rfl := Spelling.takes_empty.mp h
      have hAccepts := Accepts.step hEof (Place.element_end hStop) hRest
      simpa [Body.events] using hAccepts
  | .option name v b =>
      obtain ⟨middle, hSetting, hBody⟩ := Spelling.takes_next.mp h
      have hMore := accepts_body b subject outer hBody hStop hRest
      have hClear : Clear eof middle := clear_of_body hBody hStop
      simpa [Body.events] using Accepts.step hEof (Place.element_option hSetting hClear) hMore
  | .case name a b =>
      obtain ⟨middle, hCase, hBody⟩ := Spelling.takes_next.mp h
      obtain ⟨_, last, hHead, hAlternatives, hLast⟩ := Spelling.takes_case.mp hCase
      have hMore := accepts_body b subject outer hBody hStop hRest
      have hAccepts := accepts_alternatives a name (.elements subject outer) hAlternatives hLast hMore
      have hNext := headD_kind_of_alternatives eof hAlternatives
      simpa [Body.events] using Accepts.step hEof (Place.element_case hEof hHead hNext) hAccepts

/-- Alternatives are accepted one after the other, and the semicolon behind the last one ends the
statement. By induction on the alternatives. -/
theorem accepts_alternatives (a : Alternatives) (subject : Text) (outer : Place)
    {tokens rest : List Token} {stop : Token} {more : List Event}
    (h : a.spelling.Takes tokens (stop :: rest)) (hStop : stop.kind = .semicolon)
    (hRest : Accepts eof outer rest more) :
    Accepts eof (.alternatives subject outer) tokens (a.events ++ .endCase :: more) := by
  match a with
  | .last label labels b =>
      have hEnd := Accepts.endCase hEof subject hStop hRest
      have hAccepts := Accepts.alternative hEof subject h fun hBody hLast =>
        accepts_body b subject outer hBody hLast hEnd
      simpa [Alternatives.events] using hAccepts
  | .cons label labels b a =>
      obtain ⟨middle, hAlternative, hMore⟩ := Spelling.takes_next.mp h
      have hEnd := accepts_alternatives a subject outer hMore hStop hRest
      have hAccepts := Accepts.alternative hEof subject hAlternative fun hBody hLast =>
        accepts_body b subject outer hBody hLast hEnd
      simpa [Alternatives.events] using hAccepts

end

/-- Every spelling of a script is read, with the events of the script. -/
theorem accepts_script {script : List Statement} (h : (scriptSpelling script).Takes tokens []) :
    Accepts eof .statements tokens (script.flatMap Statement.events ++ [.endScript]) := by
  induction script generalizing tokens with
  | nil =>
      obtain rfl := Spelling.takes_empty.mp h
      exact accepts_end
  | cons s script ih =>
      obtain ⟨middle, hStatement, hScript⟩ := Spelling.takes_next.mp h
      rw [List.flatMap_cons, List.append_assoc]
      by_cases hCase : ∃ name a, s = .case name a
      · obtain ⟨name, a, rfl⟩ := hCase
        obtain ⟨_, stop, hHead, hAlternatives, hStop⟩ := Spelling.takes_case.mp hStatement
        have hAccepts := accepts_alternatives hEof a name .statements hAlternatives hStop (ih hScript)
        have hNext := headD_kind_of_alternatives eof hAlternatives
        simpa [Statement.events] using
          Accepts.step hEof (Place.statement_case hEof hHead hNext) hAccepts
      · have hSimple : ∀ name a, s ≠ .case name a := fun name a hs => hCase ⟨name, a, hs⟩
        have hClear := clear_of_script hEof hScript
        exact Accepts.step hEof (Place.statement_complete hEof hSimple hStatement hClear) (ih hScript)

end completeness

/-- Tokens are read to their end exactly when they spell a script, and then with its events. -/
theorem accepts_iff :
    Accepts eof .statements tokens events ↔
      ∃ script, (scriptSpelling script).Takes tokens [] ∧
        events = script.flatMap Statement.events ++ [.endScript] := by
  constructor
  · intro h
    exact Accepts.remains hEof h
  · rintro ⟨script, hScript, rfl⟩
    exact accepts_script hEof hScript

end Parse

end Runsheet
