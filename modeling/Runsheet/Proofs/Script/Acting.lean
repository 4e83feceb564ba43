import Runsheet.Proofs.Script.Recorded

/-! Reading for someone who may refuse a report. Wherever a construct reports something, a refusal
ends the reading there, with nothing reported after it and nothing read. So what is reported to such a
listener is what would be written down, cut off at the first refusal; this is proved construct by
construct. -/
namespace Runsheet

variable {σ ε α β : Type}

namespace Acting

/-- A report is a call. When it is refused the computation ends with the refusal, and nothing that
was to come after it is run. -/
theorem report_eq (e : Emission) (act : σ → Emission → σ × Option ε) (s : σ) :
    (report e : Acting σ ε Unit) act s =
      match act s e with
      | (s', some refusal) => (s', .error refusal)
      | (s', none) => (s', .ok ()) :=
  rfl

/-- This is where a refusal is handed on: the second part is run only if the first came to its end,
and then with the state that the first left. -/
theorem bind_eq (x : Acting σ ε α) (f : α → Acting σ ε β) (act : σ → Emission → σ × Option ε)
    (s : σ) :
    (x >>= f) act s =
      match x act s with
      | (s', .error refusal) => (s', .error refusal)
      | (s', .ok a) => f a act s' :=
  rfl

end Acting

/-- Hands reports on in order, up to the first refusal. -/
def handOn (act : σ → Emission → σ × Option ε) : σ → List Emission → σ × Option ε
  | s, [] => (s, none)
  | s, e :: rest =>
    match act s e with
    | (s', some refusal) => (s', some refusal)
    | (s', none) => handOn act s' rest

/-- Reports are handed on as a whole or in two parts, the second only if nothing in the first was
refused. -/
theorem handOn_append (act : σ → Emission → σ × Option ε) (s : σ) (first second : List Emission) :
    handOn act s (first ++ second) =
      match handOn act s first with
      | (s', some refusal) => (s', some refusal)
      | (s', none) => handOn act s' second := by
  induction first generalizing s with
  | nil => rfl
  | cons e first ih =>
      rw [List.cons_append, handOn, handOn]
      match act s e with
      | (s', some refusal) => rfl
      | (s', none) => exact ih s'

/-- A recorded computation with a listener: what was written down is handed on, and the value is
reached when nothing of it is refused. -/
def Recorded.handTo (x : Recorded α) : Acting σ ε α := fun act s =>
  match handOn act s x.emitted with
  | (s', some refusal) => (s', .error refusal)
  | (s', none) => (s', .ok x.outcome)

namespace Recorded

/-- One report is one call. -/
theorem handTo_report (e : Emission) :
    (report e : Recorded Unit).handTo = (report e : Acting σ ε Unit) := by
  funext act s
  have hEmitted : (report e : Recorded Unit).emitted = [e] := rfl
  rw [Acting.report_eq, handTo, hEmitted, handOn]
  match act s e with
  | (s', some refusal) => rfl
  | (s', none) => rfl

/-- A refusal on the way to the first value keeps the second computation from being reached. -/
theorem handTo_bind (x : Recorded α) (f : α → Recorded β) :
    (x >>= f).handTo = (x.handTo >>= fun a => (f a).handTo : Acting σ ε β) := by
  funext act s
  have hEmitted : (x >>= f).emitted = x.emitted ++ (f x.outcome).emitted := rfl
  rw [Acting.bind_eq, handTo, hEmitted, handOn_append, handTo]
  match handOn act s x.emitted with
  | (s', some refusal) => rfl
  | (s', none) => rfl

end Recorded

/-- A step reads for a listener as it does when its reports are written down, up to the first that the
listener refuses. -/
def Reader.Follows (x : Reader (Acting σ ε) α) (y : Recorder α) : Prop :=
  ∀ eof tokens, x eof tokens = (y eof tokens).handTo

namespace Reader

section basic

theorem follows_pure (a : α) : Follows (pure a : Reader (Acting σ ε) α) (pure a) := fun _ _ => rfl

/-- If two steps do so, then so does one after the other. -/
theorem Follows.bind {x : Reader (Acting σ ε) α} {y : Recorder α} {f : α → Reader (Acting σ ε) β}
    {g : α → Recorder β} (hx : Follows x y) (hf : ∀ a, Follows (f a) (g a)) :
    Follows (x >>= f) (y >>= g) := by
  intro eof tokens
  change Reader.bind x f eof tokens = (Reader.bind y g eof tokens).handTo
  rw [Reader.bind, Reader.bind, Recorded.handTo_bind, hx]
  congr 1
  funext result
  rcases result with e | ⟨a, rest⟩
  · rfl
  · exact hf a eof rest

/-- Which of two constructs is read depends on the tokens only, so both readers take the same
branch. -/
theorem Follows.ite {c : Prop} [Decidable c] {x x' : Reader (Acting σ ε) α} {y y' : Recorder α}
    (hx : Follows x y) (hx' : Follows x' y') :
    Follows (if c then x else x') (if c then y else y') := by
  split
  · exact hx
  · exact hx'

/-- A step that reports one thing and reads nothing. -/
theorem follows_report (e : Emission) :
    Follows (fun _ tokens => do report e; pure (.ok ((), tokens)) : Reader (Acting σ ε) Unit)
      (fun _ tokens => do report e; pure (.ok ((), tokens))) := by
  intro eof tokens
  rw [Recorded.handTo_bind, Recorded.handTo_report]
  rfl

/-- A trace record is reported like an event, and may be refused like one. -/
theorem follows_note (record : LogRecord) :
    Follows (note record : Reader (Acting σ ε) Unit) (note record) :=
  follows_report (.note record)

/-- An event is one report; the reader that is refused here ends with the refusal in place of a
value. -/
theorem follows_emit (e : Event) (pos : Pos) :
    Follows (emit e pos : Reader (Acting σ ε) Unit) (emit e pos) :=
  follows_report (.event e pos)

/-- A syntax error reports nothing, so that there is nothing to refuse. -/
theorem follows_fail (e : SyntaxError) : Follows (fail e : Reader (Acting σ ε) α) (fail e) :=
  fun _ _ => rfl

/-- Steps that only look at tokens report nothing and are the same for every listener. -/
theorem follows_current : Follows (current : Reader (Acting σ ε) Token) current := fun _ _ => rfl

theorem follows_following : Follows (following : Reader (Acting σ ε) Token) following :=
  fun _ _ => rfl

theorem follows_advance : Follows (advance : Reader (Acting σ ε) Token) advance := fun _ _ => rfl

theorem follows_strings : Follows (strings : Reader (Acting σ ε) Text) strings := fun _ _ => rfl

end basic

section words

variable {context : Construct} {kind : TokenKind}

theorem follows_unexpected {expected : List TokenKind} :
    Follows (unexpected context expected : Reader (Acting σ ε) α) (unexpected context expected) :=
  follows_current.bind fun _ => follows_fail _

/-- Whether a required token is there is decided without a report. -/
theorem follows_expect :
    Follows (expect kind context : Reader (Acting σ ε) Token) (expect kind context) :=
  follows_current.bind fun _ => follows_advance.ite follows_unexpected

theorem follows_accept : Follows (accept kind : Reader (Acting σ ε) Bool) (accept kind) :=
  follows_current.bind fun _ => (follows_advance.bind fun _ => follows_pure _).ite (follows_pure _)

theorem follows_word : Follows (word context : Reader (Acting σ ε) Text) (word context) := by
  refine follows_current.bind fun token => ?_
  split
  · exact follows_strings
  · exact follows_advance.bind fun _ => follows_pure _
  · exact follows_unexpected

/-- A label is read to its end before anybody is told of it. -/
theorem follows_label : Follows (label context : Reader (Acting σ ε) Text) (label context) :=
  follows_current.bind fun _ =>
    (follows_advance.bind fun _ => follows_pure _).ite (follows_strings.ite follows_unexpected)

/-- The labels of a list are reported one by one, so the list is left at the label that is refused. -/
theorem follows_labels {event : Text → Event} :
    Follows (labels context event : Reader (Acting σ ε) Unit) (labels context event) := by
  intro eof tokens
  induction hLength : tokens.length using Nat.strongRecOn generalizing tokens with
  | ind length ih =>
      rw [labels, labels, Recorded.handTo_bind, follows_label]
      congr 1
      funext result
      rcases result with e | ⟨text, rest⟩
      · rfl
      · dsimp only
        rw [Recorded.handTo_bind, Recorded.handTo_report]
        congr 1
        funext _
        cases rest with
        | nil => rfl
        | cons bar rest' =>
            dsimp only
            split
            · split
              · rename_i hLess
                exact ih _ (hLength ▸ hLess) rest' rfl
              · rfl
            · rfl

theorem follows_compoundValue :
    Follows (compoundValue : Reader (Acting σ ε) Text) compoundValue :=
  follows_advance.bind fun _ => follows_current.bind fun _ => follows_following.bind fun _ =>
    (follows_advance.bind fun _ => follows_advance.bind fun _ => follows_pure _).ite (follows_pure _)

end words

section constructs

variable {context : Construct} {kind : AxisKind} {name : Text}

theorem follows_enter {rule : String} {token : Token} :
    Follows (enter rule token : Reader (Acting σ ε) Unit) (enter rule token) :=
  follows_note _

/-- The tool is reported when its statement has been read to the semicolon, so a refusal comes after
all its tokens were taken. -/
theorem follows_toolStatement :
    Follows (toolStatement : Reader (Acting σ ε) Unit) toolStatement :=
  follows_current.bind fun _ => follows_enter.bind fun _ => follows_advance.bind fun _ =>
  follows_expect.bind fun _ => follows_current.bind fun _ => follows_word.bind fun _ =>
  follows_expect.bind fun _ => follows_emit _ _

theorem follows_inputStatement :
    Follows (inputStatement : Reader (Acting σ ε) Unit) inputStatement :=
  follows_current.bind fun _ => follows_enter.bind fun _ => follows_advance.bind fun _ =>
  follows_advance.bind fun _ => follows_current.bind fun _ => follows_word.bind fun _ =>
  follows_expect.bind fun _ => follows_emit _ _

/-- The default is reported in its clause, before the declaration is known to end well. -/
theorem follows_defaultClause :
    Follows (defaultClause kind name : Reader (Acting σ ε) Unit) (defaultClause kind name) := by
  refine follows_accept.bind fun _ => Follows.ite ?_ (follows_pure _)
  exact follows_expect.bind fun _ => follows_expect.bind fun _ => follows_current.bind fun _ =>
    follows_label.bind fun _ => follows_emit _ _

/-- A declaration reports its name before it reads the labels, and each label before it reads the
next. -/
theorem follows_declaration :
    Follows (declaration kind : Reader (Acting σ ε) Unit) (declaration kind) := by
  refine follows_current.bind fun _ => (follows_note _).bind fun _ =>
    follows_advance.bind fun _ => follows_expect.bind fun _ => ?_
  refine (follows_emit _ _).bind fun _ => follows_expect.bind fun _ => ?_
  exact follows_labels.bind fun _ => follows_defaultClause.bind fun _ =>
    follows_expect.bind fun _ => follows_pure _

theorem follows_selectStatement :
    Follows (selectStatement : Reader (Acting σ ε) Unit) selectStatement :=
  follows_current.bind fun _ => follows_enter.bind fun _ => follows_advance.bind fun _ =>
  follows_expect.bind fun _ => follows_expect.bind fun _ => follows_label.bind fun _ =>
  follows_expect.bind fun _ => follows_emit _ _

theorem follows_everyStatement :
    Follows (everyStatement : Reader (Acting σ ε) Unit) everyStatement :=
  follows_current.bind fun _ => follows_enter.bind fun _ => follows_advance.bind fun _ =>
  follows_expect.bind fun _ => follows_expect.bind fun _ => follows_emit _ _

/-- Each way to read the value of an option ends in one report, at the option. -/
theorem follows_option : Follows (option : Reader (Acting σ ε) Unit) option := by
  refine follows_advance.bind fun _ => (follows_note _).bind fun _ =>
    follows_current.bind fun _ => ?_
  split
  · exact follows_strings.bind fun _ => follows_emit _ _
  · exact follows_compoundValue.bind fun _ => follows_emit _ _
  · exact follows_compoundValue.bind fun _ => follows_emit _ _
  · exact follows_compoundValue.bind fun _ => follows_emit _ _
  · exact follows_fail _
  · exact follows_following.bind fun _ =>
      (follows_compoundValue.bind fun _ => follows_emit _ _).ite (follows_emit _ _)

/-- The case statement is reported once its subject and colon have been read, before any of its
alternatives. -/
theorem follows_caseHeader :
    Follows (caseHeader context : Reader (Acting σ ε) Text) (caseHeader context) := by
  refine follows_advance.bind fun _ => follows_enter.bind fun _ =>
    follows_expect.bind fun _ => (follows_emit _ _).bind fun _ => ?_
  exact follows_expect.bind fun _ => follows_current.bind fun _ =>
    (follows_fail _).ite (follows_pure _)

/-- An alternative is reported before its labels, and each of these by its own event. -/
theorem follows_alternativeHeader :
    Follows (alternativeHeader : Reader (Acting σ ε) Unit) alternativeHeader :=
  follows_current.bind fun _ => follows_enter.bind fun _ => (follows_emit _ _).bind fun _ =>
  follows_labels.bind fun _ => follows_expect.bind fun _ => follows_pure _

end constructs

section places

variable {subject : Text} {outer : Place}

/-- Among statements the next token decides which construct is read; every one of them reports to
the listener as it is read. -/
theorem follows_statement :
    Follows (Place.statement : Reader (Acting σ ε) Place) Place.statement := by
  have hReturn : ∀ {x : Reader (Acting σ ε) Unit} {y : Recorder Unit}, Follows x y →
      Follows (do x; return Place.statements) (do y; return Place.statements) :=
    fun h => h.bind fun _ => follows_pure _
  refine follows_current.bind fun _ => ?_
  split
  · exact hReturn follows_toolStatement
  · exact follows_following.bind fun _ =>
      (hReturn follows_inputStatement).ite (hReturn follows_declaration)
  · exact hReturn follows_declaration
  · exact follows_caseHeader.bind fun _ => follows_pure _
  · exact hReturn follows_selectStatement
  · exact hReturn follows_everyStatement
  · exact hReturn follows_option
  · exact follows_unexpected

/-- The end of a case statement is reported at its semicolon, or else the header of the next
alternative is read. -/
theorem follows_nextAlternative :
    Follows (Place.nextAlternative subject outer : Reader (Acting σ ε) Place)
      (Place.nextAlternative subject outer) := by
  refine follows_current.bind fun _ => Follows.ite ?_ ?_
  · exact follows_advance.bind fun _ => (follows_note _).bind fun _ =>
      (follows_emit _ _).bind fun _ => follows_pure _
  · exact follows_alternativeHeader.bind fun _ => follows_pure _

/-- In an alternative an option, a nested case statement or the end is read, again each with its own
reports. -/
theorem follows_element :
    Follows (Place.element subject outer : Reader (Acting σ ε) Place)
      (Place.element subject outer) := by
  refine follows_current.bind fun _ => ?_
  split
  · exact follows_advance.bind fun _ => (follows_emit _ _).bind fun _ => follows_pure _
  · exact follows_option.bind fun _ => follows_pure _
  · exact follows_caseHeader.bind fun _ => follows_pure _
  · exact follows_unexpected

/-- Whatever construct comes next, a refusal inside it ends the reading at the refused report. -/
theorem follows_step (place : Place) :
    Follows (place.step : Reader (Acting σ ε) Place) place.step := by
  cases place with
  | statements => exact follows_statement
  | alternatives subject outer => exact follows_nextAlternative
  | elements subject outer => exact follows_element

end places

end Reader

/-- From any place on, reading goes as far as the listener lets it: by induction on the tokens left,
one construct after the other. -/
theorem Place.readOn_eq (eof : Token) (place : Place) (tokens : List Token) :
    (place.readOn eof tokens : Acting σ ε (Option ParseFailure)) =
      (place.readOn eof tokens : Recorded (Option ParseFailure)).handTo := by
  induction hLength : tokens.length using Nat.strongRecOn generalizing place tokens with
  | ind length ih =>
      rw [readOn, readOn]
      split
      · rw [Recorded.handTo_bind, Recorded.handTo_report]
        congr 1
        funext _
        rw [Recorded.handTo_bind, Recorded.handTo_report]
        rfl
      · rw [Recorded.handTo_bind, Reader.follows_step]
        congr 1
        funext result
        rcases result with e | ⟨place', rest⟩
        · dsimp only
          rw [Recorded.handTo_bind, Recorded.handTo_report]
          rfl
        · dsimp only
          split
          · rename_i hLess
            exact ih _ (hLength ▸ hLess) place' rest rfl
          · rfl

/-- The whole script, with its beginning and end: from the first report on the listener decides how
far reading goes. -/
theorem Tokens.read_eq (tokens : Tokens) :
    (tokens.read : Acting σ ε (Option ParseFailure)) =
      (tokens.read : Recorded (Option ParseFailure)).handTo := by
  rw [read, read, Recorded.handTo_bind, Recorded.handTo_report]
  congr 1
  funext _
  rw [Recorded.handTo_bind, Recorded.handTo_report]
  congr 1
  funext _
  exact Place.readOn_eq _ _ _

/-- Someone who writes everything down and refuses nothing is handed every report. -/
theorem handOn_keep (emitted more : List Emission) :
    handOn (fun kept e => (kept ++ [e], (none : Option ε))) emitted more =
      (emitted ++ more, none) := by
  induction more generalizing emitted with
  | nil => rw [handOn, List.append_nil]
  | cons e more ih =>
      refine (ih (emitted ++ [e])).trans ?_
      rw [List.append_assoc, List.singleton_append]

namespace Parse

/-- What is reported of a script: its beginning, and then whatever is read from the first statement
on. -/
theorem ofTokens_eq (tokens : Tokens) :
    ofTokens tokens =
      (fromPlace tokens.eof .statements tokens.body).after (beginning tokens) := by
  have hRead : (tokens.read : Recorded (Option ParseFailure)) =
      ⟨beginning tokens ++ (fromPlace tokens.eof .statements tokens.body).emitted,
        (fromPlace tokens.eof .statements tokens.body).failure⟩ := rfl
  rw [ofTokens, Tokens.drive, Tokens.read_eq, hRead, Recorded.handTo]
  simp only [handOn_keep, List.nil_append]
  cases hFailure : (fromPlace tokens.eof .statements tokens.body).failure with
  | none => simp only [Option.map_none, after, hFailure]
  | some failure => simp only [Option.map_some, after, hFailure]

/-- Why reading failed does not depend on the listener who writes everything down; it is decided by
the tokens. -/
theorem failure_ofTokens (tokens : Tokens) :
    (ofTokens tokens).failure = (fromPlace tokens.eof .statements tokens.body).failure := by
  rw [ofTokens_eq]
  rfl

/-- Reading for a listener is handing on the reports of the whole script up to the first refusal, and a
refusal comes before a failure to read what follows. -/
theorem drive_eq (act : σ → Emission → σ × Option ε) (s : σ) (tokens : Tokens) :
    tokens.drive act s =
      match handOn act s (ofTokens tokens).emitted with
      | (s', some refusal) => (s', some (.refused refusal))
      | (s', none) => (s', (ofTokens tokens).failure.map .unreadable) := by
  have hRead : (tokens.read : Recorded (Option ParseFailure)) =
      ⟨(ofTokens tokens).emitted, (ofTokens tokens).failure⟩ := by
    rw [ofTokens_eq]
    rfl
  rw [Tokens.drive, Tokens.read_eq, hRead, Recorded.handTo]
  match handOn act s (ofTokens tokens).emitted with
  | (s', some refusal) => rfl
  | (s', none) => rfl

end Parse

end Runsheet
