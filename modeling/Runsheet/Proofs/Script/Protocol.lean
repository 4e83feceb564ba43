import Runsheet.Proofs.Script.Acting

/-! The order of events. A stage tells which events may come next, and every reading follows the
stages from the first event to its last one, also when it stops at an error. -/
namespace Runsheet

/-- How far a script has been reported. An alternative is being labelled until its first label, and
an axis is being declared until another statement begins. -/
inductive Stage
  | unbegun
  | reading (place : Place)
  | declaring (kind : AxisKind) (name : Text)
  | labelling (subject : Text) (outer : Place)
  | ended
  deriving DecidableEq, Repr

namespace Stage

def amongStatements : Event → Option Stage
  | .setTool _ | .addSource _ | .addSwitch _ | .select .. => some (reading .statements)
  | .declare kind name => some (declaring kind name)
  | .beginCase subject => some (reading (.alternatives subject .statements))
  | .endScript => some ended
  | _ => none

/-- The stage after an event, none when the event may not come. -/
def next : Stage → Event → Option Stage
  | unbegun, .beginScript => some (reading .statements)
  | reading .statements, e => amongStatements e
  | declaring kind name, .addLabel kind' name' _ =>
    if kind' = kind ∧ name' = name then some (declaring kind name) else none
  | declaring kind name, .setDefault kind' name' _ =>
    if kind' = kind ∧ name' = name then some (declaring kind name) else none
  | declaring _ _, e => amongStatements e
  | reading (.alternatives subject outer), .beginAlternative => some (labelling subject outer)
  | reading (.alternatives _ outer), .endCase => some (reading outer)
  | labelling subject outer, .addAlternativeLabel _ => some (reading (.elements subject outer))
  | reading (.elements subject outer), .addAlternativeLabel _
  | reading (.elements subject outer), .addSwitch _ => some (reading (.elements subject outer))
  | reading (.elements subject outer), .beginCase inner =>
    some (reading (.alternatives inner (.elements subject outer)))
  | reading (.elements subject outer), .endAlternative =>
    some (reading (.alternatives subject outer))
  | _, _ => none

/-- The stage after reports, none when one of them may not come. -/
def after : Stage → List Emission → Option Stage
  | st, [] => some st
  | st, .note _ :: rest => st.after rest
  | st, .event e _ :: rest => (st.next e).bind fun st' => st'.after rest

/-- Reports in two parts lead to the stage that the second part reaches from where the first one
led. -/
theorem after_append (st : Stage) (first second : List Emission) :
    st.after (first ++ second) = (st.after first).bind fun st' => st'.after second := by
  induction first generalizing st with
  | nil => rfl
  | cons emission first ih =>
      cases emission with
      | note record => exact ih st
      | event e pos =>
          rw [List.cons_append, after, after, Option.bind_assoc]
          congr 1
          funext st'
          exact ih st'

/-- The stages in which reading can be at a place. -/
def At (st : Stage) (place : Place) : Prop :=
  st = reading place ∨ place = .statements ∧ ∃ kind name, st = declaring kind name

/-- An event that begins a statement is due in every stage in which statements are read, also right
after a declaration. -/
theorem At.next_of_amongStatements {st st' : Stage} {e : Event} (h : st.At .statements)
    (he : amongStatements e = some st') : st.next e = some st' := by
  rcases h with rfl | ⟨_, kind, name, rfl⟩
  · exact he
  · cases e <;> first | exact he | cases he

end Stage

namespace Reader

variable {α β : Type} {st st' : Stage}

/-- From a stage on, the step reports only what may come, and a value it gives goes with the stage
it ends in. -/
def Leads (r : Recorder α) (st : Stage) (goal : α → Stage → Prop) : Prop :=
  ∀ eof tokens, ∃ st', st.after (r eof tokens).emitted = some st' ∧
    ∀ a rest, (r eof tokens).outcome = .ok (a, rest) → goal a st'

theorem Leads.pure {a : α} {goal : α → Stage → Prop} (h : goal a st) :
    (pure a : Recorder α).Leads st goal := by
  intro eof tokens
  refine ⟨st, rfl, fun b rest hOutcome => ?_⟩
  cases hOutcome
  exact h

/-- Two steps lead where the second leads from every stage that the first can reach. -/
theorem Leads.bind {x : Recorder α} {f : α → Recorder β} {middle : α → Stage → Prop}
    {goal : β → Stage → Prop} (hx : x.Leads st middle)
    (hf : ∀ a st', middle a st' → (f a).Leads st' goal) : (x >>= f).Leads st goal := by
  intro eof tokens
  obtain ⟨st', hAfter, hMiddle⟩ := hx eof tokens
  rw [bind_eq]
  cases hRead : x eof tokens with
  | mk emitted outcome =>
      rw [hRead] at hAfter hMiddle
      cases outcome with
      | error e =>
          exact ⟨st', hAfter, nofun⟩
      | ok result =>
          obtain ⟨a, rest⟩ := result
          obtain ⟨st'', hAfter', hGoal⟩ := hf a st' (hMiddle a rest rfl) eof rest
          refine ⟨st'', ?_, hGoal⟩
          dsimp only
          rw [Stage.after_append, hAfter]
          exact hAfter'

/-- A step that depends on the tokens leads to its goal on either way, each with the knowledge of
the test. -/
theorem Leads.ite {c : Prop} [Decidable c] {x y : Recorder α} {goal : α → Stage → Prop}
    (hx : c → x.Leads st goal) (hy : ¬c → y.Leads st goal) :
    (if c then x else y).Leads st goal := by
  by_cases h : c
  · rw [if_pos h]
    exact hx h
  · rw [if_neg h]
    exact hy h

/-- A report that is due leads to the next stage, and no further. -/
theorem leads_emit {e : Event} {pos : Pos} (h : st.next e = some st') :
    (emit e pos).Leads st fun _ st'' => st'' = st' := by
  intro eof tokens
  refine ⟨st', ?_, fun _ _ _ => rfl⟩
  change (st.next e).bind (fun st'' => st''.after []) = some st'
  rw [h]
  rfl

/-- The step reports no events. -/
def Silent (r : Recorder α) : Prop := ∀ st, r.Leads st fun _ st' => st' = st

/-- A step without events leaves the stage alone, so that it may be passed over. -/
theorem Silent.leads_bind {x : Recorder α} {f : α → Recorder β} {goal : β → Stage → Prop}
    (hx : x.Silent) (hf : ∀ a, (f a).Leads st goal) : (x >>= f).Leads st goal := by
  refine (hx st).bind fun a st' h => ?_
  rw [h]
  exact hf a

theorem Silent.bind {x : Recorder α} {f : α → Recorder β} (hx : x.Silent) (hf : ∀ a, (f a).Silent) :
    (x >>= f).Silent :=
  fun st => hx.leads_bind fun a => hf a st

theorem Silent.ite {c : Prop} [Decidable c] {x y : Recorder α} (hx : x.Silent) (hy : y.Silent) :
    (if c then x else y).Silent :=
  fun st => Leads.ite (fun _ => hx st) fun _ => hy st

theorem silent_pure (a : α) : (pure a : Recorder α).Silent := fun _ => Leads.pure rfl

theorem silent_note (record : LogRecord) : (note record).Silent :=
  fun st _ _ => ⟨st, rfl, fun _ _ _ => rfl⟩

/-- An error leads anywhere, since nothing is read after it. -/
theorem leads_fail {e : SyntaxError} {goal : α → Stage → Prop} :
    (fail e : Recorder α).Leads st goal :=
  fun _ _ => ⟨st, rfl, nofun⟩

theorem silent_current : current.Silent := fun st _ _ => ⟨st, rfl, fun _ _ _ => rfl⟩

theorem silent_following : following.Silent := fun st _ _ => ⟨st, rfl, fun _ _ _ => rfl⟩

theorem silent_advance : advance.Silent := fun st _ _ => ⟨st, rfl, fun _ _ _ => rfl⟩

theorem silent_strings : strings.Silent := fun st _ _ => ⟨st, rfl, fun _ _ _ => rfl⟩

theorem leads_unexpected {context : Construct} {expected : List TokenKind}
    {goal : α → Stage → Prop} : (unexpected context expected : Recorder α).Leads st goal :=
  silent_current.leads_bind fun _ => leads_fail

/-- Taking a required token reports nothing, whether it is there or not. -/
theorem silent_expect (kind : TokenKind) (context : Construct) : (expect kind context).Silent :=
  silent_current.bind fun _ => silent_advance.ite (fun _ => leads_unexpected)

theorem silent_accept (kind : TokenKind) : (accept kind).Silent :=
  silent_current.bind fun _ => (silent_advance.bind fun _ => silent_pure _).ite (silent_pure _)

theorem silent_word (context : Construct) : (word context).Silent := by
  refine silent_current.bind fun token => ?_
  split
  · exact silent_strings
  · exact silent_advance.bind fun _ => silent_pure _
  · exact fun _ => leads_unexpected

theorem silent_label (context : Construct) : (label context).Silent :=
  silent_current.bind fun _ =>
    (silent_advance.bind fun _ => silent_pure _).ite (silent_strings.ite (fun _ => leads_unexpected))

/-- The value of an option is put together before anything is reported. -/
theorem silent_compoundValue : compoundValue.Silent :=
  silent_advance.bind fun _ => silent_current.bind fun _ => silent_following.bind fun _ =>
    (silent_advance.bind fun _ => silent_advance.bind fun _ => silent_pure _).ite (silent_pure _)

theorem silent_enter (rule : String) (token : Token) : (enter rule token).Silent := silent_note _

/-- Labels lead to the stage that a first label leads to and further labels keep. -/
theorem leads_labels {context : Construct} {event : Text → Event}
    (hFirst : ∀ text, st.next (event text) = some st')
    (hMore : ∀ text, st'.next (event text) = some st') :
    Leads (labels context event) st fun _ st'' => st'' = st' := by
  intro eof tokens
  induction hLength : tokens.length using Nat.strongRecOn generalizing st tokens with
  | ind length ih =>
      obtain ⟨st₁, hSilent, hSame⟩ := silent_label context st eof tokens
      rw [labels_eq]
      cases hLabel : (label context : Recorder Text) eof tokens with
      | mk emitted outcome =>
          rw [hLabel] at hSilent hSame
          cases outcome with
          | error e => exact ⟨_, hSilent, nofun⟩
          | ok result =>
              obtain ⟨text, rest⟩ := result
              have hStage : st₁ = st := hSame text rest rfl
              rw [hStage] at hSilent
              have hReported : ∀ pos,
                  st.after (emitted ++ [.event (event text) pos]) = some st' := by
                intro pos
                rw [Stage.after_append, hSilent]
                change (st.next (event text)).bind (fun st'' => st''.after []) = some st'
                rw [hFirst]
                rfl
              dsimp only
              split
              · exact ⟨st', hReported _, fun _ _ _ => rfl⟩
              · rename_i bar after
                split
                · split
                  · rename_i hLess
                    obtain ⟨st'', hAfter, hSame'⟩ := ih _ (hLength ▸ hLess) hMore after rfl
                    refine ⟨st'', ?_, hSame'⟩
                    dsimp only
                    rw [Stage.after_append, hReported]
                    exact hAfter
                  · exact ⟨st', hReported _, fun _ _ _ => rfl⟩
                · exact ⟨st', hReported _, fun _ _ _ => rfl⟩

/-- A goal may be weakened to what the next step needs. -/
theorem Leads.mono {x : Recorder α} {goal goal' : α → Stage → Prop} (h : x.Leads st goal)
    (hGoal : ∀ a st', goal a st' → goal' a st') : x.Leads st goal' := by
  intro eof tokens
  obtain ⟨st', hAfter, h⟩ := h eof tokens
  exact ⟨st', hAfter, fun a rest hOutcome => hGoal a st' (h a rest hOutcome)⟩

section constructs

variable {place outer : Place} {subject : Text}

/-- An event that is a whole statement. -/
theorem leads_emit_statement {e : Event} {pos : Pos} (h : st.At .statements)
    (he : Stage.amongStatements e = some (.reading .statements)) :
    (emit e pos).Leads st fun _ st' => st'.At .statements :=
  (leads_emit (h.next_of_amongStatements he)).mono fun _ _ h => Or.inl h

/-- A tool statement reports once, at its end, and statements go on. -/
theorem leads_toolStatement (h : st.At .statements) :
    toolStatement.Leads st fun _ st' => st'.At .statements :=
  silent_current.leads_bind fun _ => (silent_enter _ _).leads_bind fun _ =>
  silent_advance.leads_bind fun _ => (silent_expect _ _).leads_bind fun _ =>
  silent_current.leads_bind fun _ => (silent_word _).leads_bind fun _ =>
  (silent_expect _ _).leads_bind fun _ => leads_emit_statement h rfl

theorem leads_inputStatement (h : st.At .statements) :
    inputStatement.Leads st fun _ st' => st'.At .statements :=
  silent_current.leads_bind fun _ => (silent_enter _ _).leads_bind fun _ =>
  silent_advance.leads_bind fun _ => silent_advance.leads_bind fun _ =>
  silent_current.leads_bind fun _ => (silent_word _).leads_bind fun _ =>
  (silent_expect _ _).leads_bind fun _ => leads_emit_statement h rfl

theorem leads_selectStatement (h : st.At .statements) :
    selectStatement.Leads st fun _ st' => st'.At .statements :=
  silent_current.leads_bind fun _ => (silent_enter _ _).leads_bind fun _ =>
  silent_advance.leads_bind fun _ => (silent_expect _ _).leads_bind fun _ =>
  (silent_expect _ _).leads_bind fun _ => (silent_label _).leads_bind fun _ =>
  (silent_expect _ _).leads_bind fun _ => leads_emit_statement h rfl

theorem leads_everyStatement (h : st.At .statements) :
    everyStatement.Leads st fun _ st' => st'.At .statements :=
  silent_current.leads_bind fun _ => (silent_enter _ _).leads_bind fun _ =>
  silent_advance.leads_bind fun _ => (silent_expect _ _).leads_bind fun _ =>
  (silent_expect _ _).leads_bind fun _ => leads_emit_statement h rfl

/-- A default belongs to the axis just declared. With or without it the declaration may still be
going on. -/
theorem leads_defaultClause (kind : AxisKind) (name : Text) :
    (defaultClause kind name).Leads (.declaring kind name) fun _ st' =>
      st' = .declaring kind name := by
  refine (silent_accept _).leads_bind fun _ => Leads.ite (fun _ => ?_) fun _ => Leads.pure rfl
  refine (silent_expect _ _).leads_bind fun _ => (silent_expect _ _).leads_bind fun _ =>
    silent_current.leads_bind fun _ => (silent_label _).leads_bind fun _ => leads_emit ?_
  exact if_pos ⟨rfl, rfl⟩

/-- A declaration reports its axis, its labels and its default in this order, all of the same axis.
-/
theorem leads_declaration (kind : AxisKind) (h : st.At .statements) :
    (declaration kind).Leads st fun _ st' => st'.At .statements := by
  refine silent_current.leads_bind fun _ => (silent_note _).leads_bind fun _ =>
    silent_advance.leads_bind fun _ => (silent_expect _ _).leads_bind fun token => ?_
  refine (leads_emit (h.next_of_amongStatements rfl)).bind fun _ _ h => ?_
  subst h
  refine (silent_expect _ _).leads_bind fun _ => ?_
  have hLabel : ∀ text, (Stage.declaring kind token.value).next
      (.addLabel kind token.value text) = some (.declaring kind token.value) :=
    fun _ => if_pos ⟨rfl, rfl⟩
  refine (leads_labels hLabel hLabel).bind fun _ _ h => ?_
  subst h
  refine (leads_defaultClause kind token.value).bind fun _ _ h => ?_
  subst h
  refine (silent_expect _ _).leads_bind fun _ => Leads.pure ?_
  exact Or.inr ⟨rfl, kind, token.value, rfl⟩

/-- An option is reported where options may come. -/
theorem leads_option (h : ∀ switch, st.next (.addSwitch switch) = some st') :
    option.Leads st fun _ st'' => st'' = st' := by
  refine silent_advance.leads_bind fun _ => (silent_note _).leads_bind fun _ =>
    silent_current.leads_bind fun _ => ?_
  split
  · exact silent_strings.leads_bind fun _ => leads_emit (h _)
  · exact silent_compoundValue.leads_bind fun _ => leads_emit (h _)
  · exact silent_compoundValue.leads_bind fun _ => leads_emit (h _)
  · exact silent_compoundValue.leads_bind fun _ => leads_emit (h _)
  · exact leads_fail
  · exact silent_following.leads_bind fun _ => Leads.ite
      (fun _ => silent_compoundValue.leads_bind fun _ => leads_emit (h _)) fun _ => leads_emit (h _)

/-- After the head of a case statement its alternatives are due. -/
theorem leads_caseHeader {context : Construct}
    (h : ∀ name, st.next (.beginCase name) = some (.reading (.alternatives name outer))) :
    (caseHeader context).Leads st fun name st' => st' = .reading (.alternatives name outer) := by
  refine silent_advance.leads_bind fun _ => (silent_enter _ _).leads_bind fun _ =>
    (silent_expect _ _).leads_bind fun _ => (leads_emit (h _)).bind fun _ _ h => ?_
  subst h
  exact (silent_expect _ _).leads_bind fun _ => silent_current.leads_bind fun _ =>
    Leads.ite (fun _ => leads_fail) fun _ => Leads.pure rfl

/-- After its labels the elements of an alternative are due. -/
theorem leads_alternativeHeader :
    alternativeHeader.Leads (.reading (.alternatives subject outer)) fun _ st' =>
      st' = .reading (.elements subject outer) := by
  have hBegin : (Stage.reading (.alternatives subject outer)).next .beginAlternative =
      some (.labelling subject outer) := rfl
  have hFirst : ∀ text, (Stage.labelling subject outer).next (.addAlternativeLabel text) =
      some (.reading (.elements subject outer)) := fun _ => rfl
  have hMore : ∀ text, (Stage.reading (.elements subject outer)).next (.addAlternativeLabel text) =
      some (.reading (.elements subject outer)) := fun _ => rfl
  refine silent_current.leads_bind fun _ => (silent_enter _ _).leads_bind fun _ =>
    (leads_emit hBegin).bind fun _ _ h => ?_
  subst h
  refine (leads_labels hFirst hMore).bind fun _ _ h => ?_
  subst h
  exact (silent_expect _ _).leads_bind fun _ => Leads.pure rfl

/-- Among statements each construct leads back to statements, or into a case statement. -/
theorem leads_statement (h : st.At .statements) :
    Place.statement.Leads st fun place st' => st'.At place := by
  have hReturn : ∀ {x : Recorder Unit}, (x.Leads st fun _ st' => st'.At .statements) →
      (do x; return .statements : Recorder Place).Leads st fun place st' => st'.At place :=
    fun hx => hx.bind fun _ _ h => Leads.pure h
  have hOption : option.Leads st fun _ st' => st'.At .statements :=
    (leads_option fun _ => h.next_of_amongStatements rfl).mono fun _ _ h => Or.inl h
  have hCase : (caseHeader .caseStatement).Leads st fun name st' =>
      st' = .reading (.alternatives name .statements) :=
    leads_caseHeader fun _ => h.next_of_amongStatements rfl
  refine silent_current.leads_bind fun _ => ?_
  split
  · exact hReturn (leads_toolStatement h)
  · exact silent_following.leads_bind fun _ => Leads.ite
      (fun _ => hReturn (leads_inputStatement h)) fun _ => hReturn (leads_declaration .input h)
  · exact hReturn (leads_declaration .choice h)
  · exact hCase.bind fun _ _ h => Leads.pure (Or.inl h)
  · exact hReturn (leads_selectStatement h)
  · exact hReturn (leads_everyStatement h)
  · exact hReturn hOption
  · exact leads_unexpected

/-- Where an alternative is due there is one, or the case statement ends and reading goes back to
what is around it. -/
theorem leads_nextAlternative :
    (Place.nextAlternative subject outer).Leads (.reading (.alternatives subject outer))
      fun place st' => st'.At place := by
  have hEnd : (Stage.reading (.alternatives subject outer)).next .endCase =
      some (.reading outer) := rfl
  refine silent_current.leads_bind fun _ => Leads.ite (fun _ => ?_) fun _ => ?_
  · refine silent_advance.leads_bind fun _ => (silent_note _).leads_bind fun _ =>
      (leads_emit hEnd).bind fun _ _ h => Leads.pure ?_
    exact Or.inl h
  · exact leads_alternativeHeader.bind fun _ _ h => Leads.pure (Or.inl h)

/-- Inside of an alternative each construct leads back to it, into a nested statement or out to the
next alternative. -/
theorem leads_element :
    (Place.element subject outer).Leads (.reading (.elements subject outer))
      fun place st' => st'.At place := by
  have hEnd : (Stage.reading (.elements subject outer)).next .endAlternative =
      some (.reading (.alternatives subject outer)) := rfl
  refine silent_current.leads_bind fun _ => ?_
  split
  · refine silent_advance.leads_bind fun _ => (leads_emit hEnd).bind fun _ _ h => Leads.pure ?_
    exact Or.inl h
  · exact (leads_option fun _ => rfl).bind fun _ _ h => Leads.pure (Or.inl h)
  · exact (leads_caseHeader fun _ => rfl).bind fun _ _ h => Leads.pure (Or.inl h)
  · exact leads_unexpected

/-- Every step at a place follows the stages and leads to the stage of its next place. -/
theorem leads_step (h : st.At place) : place.step.Leads st fun place' st' => st'.At place' := by
  cases place with
  | statements => exact leads_statement h
  | alternatives subject outer =>
      rcases h with rfl | ⟨hPlace, _⟩
      · exact leads_nextAlternative
      · cases hPlace
  | elements subject outer =>
      rcases h with rfl | ⟨hPlace, _⟩
      · exact leads_element
      · cases hPlace

end constructs

end Reader

namespace Parse

/-- Reading from a place follows the stages, also up to an error. -/
theorem after_fromPlace (eof : Token) (place : Place) (tokens : List Token) (st : Stage)
    (h : st.At place) : ∃ st', st.after (fromPlace eof place tokens).emitted = some st' := by
  induction hLength : tokens.length using Nat.strongRecOn generalizing place tokens st with
  | ind length ih =>
      rw [fromPlace_eq]
      split
      · rename_i hEnd
        rw [hEnd.1] at h
        refine ⟨.ended, ?_⟩
        change (st.next .endScript).bind (fun st' => st'.after []) = some .ended
        rw [h.next_of_amongStatements rfl]
        rfl
      · obtain ⟨st', hAfter, hAt⟩ := Reader.leads_step h eof tokens
        cases hStep : (place.step : Recorder Place) eof tokens with
        | mk emitted outcome =>
            rw [hStep] at hAfter hAt
            cases outcome with
            | error e =>
                refine ⟨st', ?_⟩
                dsimp only
                rw [Stage.after_append, hAfter]
                rfl
            | ok result =>
                obtain ⟨place', rest⟩ := result
                dsimp only
                split
                · rename_i hLess
                  obtain ⟨st'', hRest⟩ := ih _ (hLength ▸ hLess) place' rest st' (hAt _ _ rfl) rfl
                  refine ⟨st'', ?_⟩
                  rw [after, Stage.after_append, hAfter]
                  exact hRest
                · exact ⟨st', hAfter⟩

/-- The reports of every reading follow the stages from the beginning of a script. -/
theorem after_ofTokens (tokens : Tokens) :
    ∃ st, Stage.unbegun.after (ofTokens tokens).emitted = some st := by
  rw [ofTokens_eq]
  exact after_fromPlace tokens.eof .statements tokens.body (.reading .statements) (Or.inl rfl)

end Parse

end Runsheet
