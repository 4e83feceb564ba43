import Runsheet.Proofs.Script.Acting

/-! Where the events of a script stand. Whatever is read, each event is given the place of a token: the
one that starts it, the one that names what it is about, or the end of the script. -/
namespace Runsheet

def Pos.IsOf (p : Pos) (ts : List Token) : Prop := ∃ t ∈ ts, p = t.pos

namespace Reader

variable {α β : Type} {P : α → Prop} {Q : β → Prop} {ts tokens : List Token} {eof : Token}

/-- What a step made of tokens from a list: events at their places, a value with some property, and
tokens of the list that are left. -/
structure PointsAt (ts : List Token) (P : α → Prop) (reading : Reading α) : Prop where
  events : ∀ e pos, .event e pos ∈ reading.emitted → pos.IsOf ts
  outcome : ∀ a rest, reading.outcome = .ok (a, rest) → rest ⊆ ts ∧ P a

/-- The step keeps to the tokens of a list when it is given nothing else. -/
def Points (ts : List Token) (P : α → Prop) (x : Recorder α) : Prop :=
  ∀ eof tokens, eof ∈ ts → tokens ⊆ ts → PointsAt ts P (x eof tokens)

section basic

/-- Whatever stands next is one of the tokens of the script, the end token included. -/
theorem mem_headD (hEof : eof ∈ ts) (hTokens : tokens ⊆ ts) : tokens.headD eof ∈ ts := by
  cases tokens with
  | nil => exact hEof
  | cons t more => exact hTokens List.mem_cons_self

theorem tail_subset (hTokens : tokens ⊆ ts) : tokens.tail ⊆ ts :=
  fun _ h => hTokens (List.mem_of_mem_tail h)

theorem points_pure {a : α} (h : P a) : Points ts P (pure a) := by
  intro eof tokens _ hTokens
  refine ⟨nofun, fun b rest hRead => ?_⟩
  cases hRead
  exact ⟨hTokens, h⟩

/-- One step after another keeps to the tokens if both do. -/
theorem Points.bind {x : Recorder α} {f : α → Recorder β} (hx : Points ts P x)
    (hf : ∀ a, P a → Points ts Q (f a)) : Points ts Q (x >>= f) := by
  intro eof tokens hEof hTokens
  obtain ⟨hEvents, hOutcome⟩ := hx eof tokens hEof hTokens
  rw [bind_eq]
  split
  · rename_i emitted e hFirst
    rw [hFirst] at hEvents
    exact ⟨hEvents, nofun⟩
  · rename_i emitted a rest hFirst
    rw [hFirst] at hEvents hOutcome
    obtain ⟨hRest, ha⟩ := hOutcome a rest rfl
    have hSecond := hf a ha eof rest hEof hRest
    refine ⟨fun e pos hEvent => ?_, hSecond.outcome⟩
    rcases List.mem_append.mp hEvent with hEvent | hEvent
    · exact hEvents e pos hEvent
    · exact hSecond.events e pos hEvent

/-- Whichever of two constructs is read keeps to the same tokens. -/
theorem Points.ite {c : Prop} [Decidable c] {x y : Recorder α} (hx : Points ts P x)
    (hy : Points ts P y) : Points ts P (if c then x else y) := by
  split
  · exact hx
  · exact hy

theorem points_note {record : LogRecord} : Points ts (fun _ => True) (note record) := by
  intro eof tokens _ hTokens
  refine ⟨fun e pos hEvent => ?_, fun a rest hRead => ?_⟩
  · cases List.mem_singleton.mp hEvent
  · cases hRead
    exact ⟨hTokens, trivial⟩

/-- An event is told at the place of one of the tokens. -/
theorem points_emit {e : Event} {t : Token} (ht : t ∈ ts) :
    Points ts (fun _ => True) (emit e t.pos) := by
  intro eof tokens _ hTokens
  refine ⟨fun e' pos hEvent => ?_, fun a rest hRead => ?_⟩
  · cases List.mem_singleton.mp hEvent
    exact ⟨t, ht, rfl⟩
  · cases hRead
    exact ⟨hTokens, trivial⟩

/-- An error reports nothing and comes to no value, so nothing is asked of it. -/
theorem points_fail {e : SyntaxError} : Points ts P (fail e) := fun _ _ _ _ => ⟨nofun, nofun⟩

/-- The token that is looked at is one of the script's, and its place may be reported later. -/
theorem points_current : Points ts (· ∈ ts) current := by
  intro eof tokens hEof hTokens
  refine ⟨nofun, fun a rest hRead => ?_⟩
  cases hRead
  exact ⟨hTokens, mem_headD hEof hTokens⟩

theorem points_following : Points ts (· ∈ ts) following := by
  intro eof tokens hEof hTokens
  refine ⟨nofun, fun a rest hRead => ?_⟩
  cases hRead
  exact ⟨hTokens, mem_headD hEof (tail_subset hTokens)⟩

theorem points_advance : Points ts (· ∈ ts) advance := by
  intro eof tokens hEof hTokens
  refine ⟨nofun, fun a rest hRead => ?_⟩
  cases hRead
  exact ⟨tail_subset hTokens, mem_headD hEof hTokens⟩

end basic

section words

variable {context : Construct} {kind : TokenKind} {kinds : List TokenKind}

theorem points_unexpected : Points ts P (unexpected context kinds) :=
  .bind points_current fun _ _ => points_fail

/-- A required token is one of the script's, be it for its place or for its text. -/
theorem points_expect : Points ts (· ∈ ts) (expect kind context) :=
  .bind points_current fun _ _ => .ite points_advance points_unexpected

theorem points_accept : Points ts (fun _ => True) (accept kind) :=
  .bind points_current fun _ _ =>
    .ite (.bind points_advance fun _ _ => points_pure trivial) (points_pure trivial)

theorem points_strings : Points ts (fun _ => True) strings := by
  intro eof tokens _ hTokens
  refine ⟨nofun, fun a rest hRead => ?_⟩
  cases hRead
  exact ⟨fun t ht => hTokens ((List.dropWhile_sublist _).subset ht), trivial⟩

/-- The value of the next token. -/
theorem points_value : Points ts (fun _ => True) (do return (← advance).value) :=
  .bind points_advance fun _ _ => points_pure trivial

theorem points_word : Points ts (fun _ => True) (word context) := by
  refine .bind points_current fun t _ => ?_
  split
  · exact points_strings
  · exact points_value
  · exact points_unexpected

theorem points_label : Points ts (fun _ => True) (label context) :=
  .bind points_current fun _ _ => .ite points_value (.ite points_strings points_unexpected)

/-- Each label is reported at the token it starts with. By induction on the tokens left. -/
theorem points_labels {event : Text → Event} : Points ts (fun _ => True) (labels context event) := by
  intro eof tokens hEof hTokens
  induction hLength : tokens.length using Nat.strongRecOn generalizing tokens with
  | ind length ih =>
      have hLabelPoints : Points ts (fun _ => True) (label context) := points_label
      obtain ⟨hEvents, hOutcome⟩ := hLabelPoints eof tokens hEof hTokens
      rw [labels_eq]
      split
      · rename_i emitted e hLabel
        rw [hLabel] at hEvents
        exact ⟨hEvents, fun a more hRead => by cases hRead⟩
      · rename_i emitted text rest hLabel
        rw [hLabel] at hEvents hOutcome
        obtain ⟨hRest, -⟩ := hOutcome text rest rfl
        have hReported : ∀ e pos, .event e pos ∈
            emitted ++ [.event (event text) (tokens.headD eof).pos] → pos.IsOf ts := by
          intro e pos hEvent
          rcases List.mem_append.mp hEvent with hEvent | hEvent
          · exact hEvents e pos hEvent
          · cases List.mem_singleton.mp hEvent
            exact ⟨_, mem_headD hEof hTokens, rfl⟩
        split
        · exact ⟨hReported, fun a more hRead => by cases hRead; exact ⟨List.nil_subset _, trivial⟩⟩
        · rename_i bar rest'
          have hRest' : rest' ⊆ ts := tail_subset hRest
          split
          · split
            · rename_i hLess
              have hMore := ih rest'.length (hLength ▸ hLess) rest' hRest' rfl
              refine ⟨fun e pos hEvent => ?_, hMore.outcome⟩
              rcases List.mem_append.mp hEvent with hEvent | hEvent
              · exact hReported e pos hEvent
              · exact hMore.events e pos hEvent
            · exact ⟨hReported, fun a more hRead => by cases hRead; exact ⟨hRest', trivial⟩⟩
          · exact ⟨hReported, fun a more hRead => by cases hRead; exact ⟨hRest, trivial⟩⟩

end words

section constructs

variable {context : Construct} {kind : AxisKind} {name : Text}

theorem points_enter {rule : String} {t : Token} : Points ts (fun _ => True) (enter rule t) :=
  points_note

theorem points_toolStatement : Points ts (fun _ => True) toolStatement := by
  refine .bind points_current fun _ _ => .bind points_enter fun _ _ => ?_
  refine .bind points_advance fun _ _ => .bind points_expect fun _ _ => ?_
  refine .bind points_current fun t ht => .bind points_word fun _ _ => ?_
  exact .bind points_expect fun _ _ => points_emit ht

theorem points_inputStatement : Points ts (fun _ => True) inputStatement := by
  refine .bind points_current fun _ _ => .bind points_enter fun _ _ => ?_
  refine .bind points_advance fun _ _ => .bind points_advance fun _ _ => ?_
  refine .bind points_current fun t ht => .bind points_word fun _ _ => ?_
  exact .bind points_expect fun _ _ => points_emit ht

theorem points_defaultClause : Points ts (fun _ => True) (defaultClause kind name) := by
  refine .bind points_accept fun _ _ => .ite ?_ (points_pure trivial)
  refine .bind points_expect fun _ _ => .bind points_expect fun _ _ => ?_
  exact .bind points_current fun t ht => .bind points_label fun _ _ => points_emit ht

/-- A declaration reports at its name, its labels and its default, all of them tokens it has read.
-/
theorem points_declaration : Points ts (fun _ => True) (declaration kind) := by
  refine .bind points_current fun _ _ => .bind points_note fun _ _ => ?_
  refine .bind points_advance fun _ _ => .bind points_expect fun t ht => ?_
  refine .bind (points_emit ht) fun _ _ => .bind points_expect fun _ _ => ?_
  refine .bind points_labels fun _ _ => .bind points_defaultClause fun _ _ => ?_
  exact .bind points_expect fun _ _ => points_pure trivial

theorem points_selectStatement : Points ts (fun _ => True) selectStatement := by
  refine .bind points_current fun _ _ => .bind points_enter fun _ _ => ?_
  refine .bind points_advance fun _ _ => .bind points_expect fun t ht => ?_
  refine .bind points_expect fun _ _ => .bind points_label fun _ _ => ?_
  exact .bind points_expect fun _ _ => points_emit ht

theorem points_everyStatement : Points ts (fun _ => True) everyStatement := by
  refine .bind points_current fun _ _ => .bind points_enter fun _ _ => ?_
  refine .bind points_advance fun _ _ => .bind points_expect fun t ht => ?_
  exact .bind points_expect fun _ _ => points_emit ht

theorem points_compoundValue : Points ts (fun _ => True) compoundValue := by
  refine .bind points_advance fun _ _ => .bind points_current fun _ _ => ?_
  refine .bind points_following fun _ _ => .ite ?_ (points_pure trivial)
  exact .bind points_advance fun _ _ => .bind points_advance fun _ _ => points_pure trivial

theorem points_option : Points ts (fun _ => True) option := by
  refine .bind points_advance fun t ht => .bind points_note fun _ _ => ?_
  refine .bind points_current fun _ _ => ?_
  split
  · exact .bind points_strings fun _ _ => points_emit ht
  · exact .bind points_compoundValue fun _ _ => points_emit ht
  · exact .bind points_compoundValue fun _ _ => points_emit ht
  · exact .bind points_compoundValue fun _ _ => points_emit ht
  · exact points_fail
  · refine .bind points_following fun _ _ => .ite ?_ (points_emit ht)
    exact .bind points_compoundValue fun _ _ => points_emit ht

/-- The case statement is reported at its subject. -/
theorem points_caseHeader : Points ts (fun _ => True) (caseHeader context) := by
  refine .bind points_advance fun _ _ => .bind points_enter fun _ _ => ?_
  refine .bind points_expect fun t ht => .bind (points_emit ht) fun _ _ => ?_
  refine .bind points_expect fun _ _ => .bind points_current fun _ _ => ?_
  exact .ite points_fail (points_pure trivial)

theorem points_alternativeHeader : Points ts (fun _ => True) alternativeHeader := by
  refine .bind points_current fun t ht => .bind points_enter fun _ _ => ?_
  refine .bind (points_emit ht) fun _ _ => .bind points_labels fun _ _ => ?_
  exact .bind points_expect fun _ _ => points_pure trivial

end constructs

end Reader

namespace Place

open Reader

variable {ts : List Token} {subject : Text} {outer : Place}

/-- Every statement reports at tokens it has looked at or taken. -/
theorem points_statement : Points ts (fun _ => True) statement := by
  have hReturn : ∀ {x : Recorder Unit}, Points ts (fun _ => True) x →
      Points ts (fun _ => True) (do x; return statements) :=
    fun h => h.bind fun _ _ => points_pure trivial
  refine .bind points_current fun _ _ => ?_
  split
  · exact hReturn points_toolStatement
  · exact .bind points_following fun _ _ =>
      .ite (hReturn points_inputStatement) (hReturn points_declaration)
  · exact hReturn points_declaration
  · exact .bind points_caseHeader fun _ _ => points_pure trivial
  · exact hReturn points_selectStatement
  · exact hReturn points_everyStatement
  · exact hReturn points_option
  · exact points_unexpected

theorem points_nextAlternative : Points ts (fun _ => True) (nextAlternative subject outer) := by
  refine .bind points_current fun _ _ => .ite ?_ ?_
  · refine .bind points_advance fun t ht => .bind points_note fun _ _ => ?_
    exact .bind (points_emit ht) fun _ _ => points_pure trivial
  · exact .bind points_alternativeHeader fun _ _ => points_pure trivial

theorem points_element : Points ts (fun _ => True) (element subject outer) := by
  refine .bind points_current fun _ _ => ?_
  split
  · exact .bind points_advance fun t ht => .bind (points_emit ht) fun _ _ => points_pure trivial
  · exact .bind points_option fun _ _ => points_pure trivial
  · exact .bind points_caseHeader fun _ _ => points_pure trivial
  · exact points_unexpected

/-- From any place, the next construct reports only at tokens of the script. -/
theorem points_step (place : Place) : Points ts (fun _ => True) place.step := by
  cases place with
  | statements => exact points_statement
  | alternatives subject outer => exact points_nextAlternative
  | elements subject outer => exact points_element

end Place

namespace Parse

open Reader

/-- From any place on, the events stand at tokens that are still to be read. -/
theorem fromPlace_isOf {eof : Token} {ts tokens : List Token} (place : Place) (hEof : eof ∈ ts)
    (hTokens : tokens ⊆ ts) :
    ∀ e pos, .event e pos ∈ (fromPlace eof place tokens).emitted → pos.IsOf ts := by
  intro e pos
  induction hLength : tokens.length using Nat.strongRecOn generalizing place tokens with
  | ind length ih =>
      obtain ⟨hEvents, hOutcome⟩ := Place.points_step place eof tokens hEof hTokens
      rw [fromPlace_eq]
      split
      · intro hEvent
        have hLast : Emission.event e pos = .event .endScript eof.pos := by
          simpa [ending] using hEvent
        cases hLast
        exact ⟨eof, hEof, rfl⟩
      split
      · rename_i emitted failure hStep
        rw [hStep] at hEvents
        intro hEvent
        exact hEvents e pos (by simpa using hEvent)
      · rename_i emitted place' rest hStep
        rw [hStep] at hEvents hOutcome
        obtain ⟨hRest, -⟩ := hOutcome place' rest rfl
        split
        · rename_i hLess
          intro hEvent
          rcases List.mem_append.mp hEvent with hEvent | hEvent
          · exact hEvents e pos hEvent
          · exact ih rest.length (hLength ▸ hLess) place' hRest rfl hEvent
        · exact hEvents e pos

/-- Every event of a script stands at a token of its source. -/
theorem isOf_of_mem_ofSource {source : Text} {e : Event} {pos : Pos}
    (h : .event e pos ∈ (ofSource source).emitted) : pos.IsOf (Tokens.ofSource source).toList := by
  rw [ofSource, ofTokens_eq] at h
  have hEof : (Tokens.ofSource source).eof ∈ (Tokens.ofSource source).toList := by
    simp [Tokens.toList]
  have hBody : (Tokens.ofSource source).body ⊆ (Tokens.ofSource source).toList :=
    List.subset_append_left _ _
  rcases List.mem_append.mp h with hFirst | hMore
  · have hBegin : e = .beginScript ∧
        pos = ((Tokens.ofSource source).body.headD (Tokens.ofSource source).eof).pos := by
      simpa [beginning] using hFirst
    exact ⟨_, mem_headD hEof hBody, hBegin.2⟩
  · exact fromPlace_isOf .statements hEof hBody e pos hMore

end Parse

end Runsheet
