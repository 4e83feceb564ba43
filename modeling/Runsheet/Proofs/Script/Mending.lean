import Runsheet.Proofs.Script.Continuation
import Runsheet.Proofs.Script.Fragments

/-! Scripts that break off. A step in front of tokens that come to their end is carried over to other
such tokens, and a step that ends in an error is completed, so by induction on the tokens whatever
was read before the blamed token is the front of something that comes to its end. -/
namespace Runsheet

namespace Place

open Reader
open Filler (Fill)

/-- Whether alternatives are expected. -/
def isAlternatives : Place → Bool
  | alternatives .. => true
  | _ => false

/-- The fillers that bring a script to its end: what is open is ended, and a case statement gets an
alternative before its end. -/
def endFillers : Place → List Filler
  | statements => []
  | alternatives _ outer => [.name, .colon, .semicolon, .semicolon] ++ outer.endFillers
  | elements _ outer => [.semicolon, .semicolon] ++ outer.endFillers

/-- What a token starts at a place: a construct that leads back to the place, a case statement, or
nothing but the end of what is open. -/
inductive Starts (eof : Token) (place : Place) (t : Token) : Prop
  | construct {x : Recorder Unit} {fillers : List Filler} (hx : x.Mendable Clear fillers eof)
      (h : ∀ {eof tokens}, eof.kind = .eof →
        place.step.told eof (t :: tokens) = (x >>= fun _ => pure place).told eof tokens)
  | case (context : Construct) (ht : t.kind = .keyword .case)
      (h : ∀ {eof tokens}, place.step.told eof (t :: tokens) =
        ((caseHeader context).behind [t] >>= fun subject => pure (alternatives subject place)).told
          eof tokens)
  | stop (place' : Place) (event : Event) (ht : t.kind = .semicolon)
      (h : ∀ {eof tokens}, place.step.told eof (t :: tokens) =
        ([(event, t.pos)], .ok (place', tokens)))
  | refused {e : SyntaxError} (he : e.About t)
      (h : ∀ {eof tokens}, place.step.told eof (t :: tokens) = ([], .error e))

variable {eof : Token} (hEof : eof.kind = .eof)
include hEof

/-- Among statements there is one that starts with any given token, or the token is at fault itself.
-/
theorem starts_statement (t : Token) : statements.Starts eof t := by
  cases hKind : t.kind with
  | keyword k =>
      cases k with
      | tool =>
          refine .construct ((mendable_toolStatement hEof t).mono fun _ _ => trivial) fun _ => ?_
          rw [step, statement, told_current_bind, List.headD_cons, hKind]
          rfl
      | input =>
          refine .construct ((mendable_inputConstruct hEof t).mono fun _ _ => trivial) ?_
          intro eof tokens _
          rw [step, statement, told_current_bind, List.headD_cons, hKind]
          change (if (tokens.headD eof).kind = .colon then (do inputStatement; return statements)
              else (do declaration .input; return statements) : Recorder Place).told eof (t :: tokens) =
            ((if (tokens.headD eof).kind = .colon then inputStatement else declaration .input) >>=
              fun _ => pure statements).told eof (t :: tokens)
          split <;> rfl
      | choice =>
          refine .construct ((mendable_declaration hEof .choice t).mono fun _ _ => trivial) fun _ => ?_
          rw [step, statement, told_current_bind, List.headD_cons, hKind]
          rfl
      | case =>
          refine .case .caseStatement hKind ?_
          intro eof tokens
          rw [step, statement, told_current_bind, List.headD_cons, hKind]
          rfl
      | select =>
          refine .construct ((mendable_selectStatement hEof t).mono fun _ _ => trivial) fun _ => ?_
          rw [step, statement, told_current_bind, List.headD_cons, hKind]
          rfl
      | every =>
          refine .construct ((mendable_everyStatement hEof t).mono fun _ _ => trivial) fun _ => ?_
          rw [step, statement, told_current_bind, List.headD_cons, hKind]
          rfl
      | default =>
          refine .refused (SyntaxError.about_unexpected t .script statementStarts) ?_
          intro eof tokens
          rw [step, statement, told_current_bind, List.headD_cons, hKind]
          rfl
  | option =>
      refine .construct (mendable_option hEof hKind) fun _ => ?_
      rw [step, statement, told_current_bind, List.headD_cons, hKind]
      rfl
  | _ =>
      refine .refused (SyntaxError.about_unexpected t .script statementStarts) ?_
      intro eof tokens
      rw [step, statement, told_current_bind, List.headD_cons, hKind]
      rfl

/-- The same holds for the elements of an alternative. -/
theorem starts_element (t : Token) (subject : Text) (outer : Place) :
    (elements subject outer).Starts eof t := by
  cases hKind : t.kind with
  | semicolon =>
      refine .stop (alternatives subject outer) .endAlternative hKind ?_
      intro eof tokens
      rw [step, element, told_current_bind, List.headD_cons, hKind]
      rfl
  | option =>
      refine .construct (mendable_option hEof hKind) fun _ => ?_
      rw [step, element, told_current_bind, List.headD_cons, hKind]
      rfl
  | keyword k =>
      cases k with
      | case =>
          refine .case .nestedCaseStatement hKind ?_
          intro eof tokens
          rw [step, element, told_current_bind, List.headD_cons, hKind]
          rfl
      | _ =>
          refine .refused (SyntaxError.about_unexpected t .alternative
            [.option, .keyword .case, .semicolon]) ?_
          intro eof tokens
          rw [step, element, told_current_bind, List.headD_cons, hKind]
          rfl
  | _ =>
      refine .refused (SyntaxError.about_unexpected t .alternative
        [.option, .keyword .case, .semicolon]) ?_
      intro eof tokens
      rw [step, element, told_current_bind, List.headD_cons, hKind]
      rfl

end Place

namespace Parse

open Reader
open Filler (Fill)

variable {eof : Token} {tokens rest more : List Token} {place place' outer : Place}
  {events : List (Event × Pos)} {e : SyntaxError} (hEof : eof.kind = .eof)
include hEof

/-- Reading on from a place is one construct and then reading on from the place behind it. -/
theorem fromPlace_of_told (h : place.step.told eof tokens = (events, .ok (place', rest))) :
    (fromPlace eof place tokens).failure = (fromPlace eof place' rest).failure ∧
      located (fromPlace eof place tokens).emitted =
        events ++ located (fromPlace eof place' rest).emitted := by
  obtain ⟨emitted, hStep, rfl⟩ := exists_of_told h
  rw [fromPlace_of_reads hEof hStep]
  exact ⟨rfl, located_append _ _⟩

/-- The end of an alternative and of its case statement. -/
theorem Accepts.endElements {subject : Text} {own : List Event} {stop stop' : Token}
    (hStop : stop.kind = .semicolon) (hStop' : stop'.kind = .semicolon)
    (h : Accepts eof outer rest own) :
    Accepts eof (.elements subject outer) (stop :: stop' :: rest)
      ([.endAlternative] ++ .endCase :: own) :=
  Accepts.step hEof (Place.element_end hStop) (Accepts.endCase hEof subject hStop' h)

/-- The fillers of a place bring the script to its end. -/
theorem accepts_endFillers (hFill : Fill place.endFillers more) :
    ∃ own, Accepts eof place more own := by
  induction place generalizing more with
  | statements =>
      rw [Filler.fill_nil.mp hFill]
      exact ⟨_, accepts_end⟩
  | elements subject outer ih =>
      obtain ⟨stop, _, rfl, hStop, hFill⟩ := Filler.fill_cons.mp hFill
      obtain ⟨stop', rest, rfl, hStop', hFill⟩ := Filler.fill_cons.mp hFill
      obtain ⟨own, hOuter⟩ := ih hFill
      exact ⟨_, Accepts.endElements hEof hStop hStop' hOuter⟩
  | alternatives subject outer ih =>
      obtain ⟨name, _, rfl, hName, hFill⟩ := Filler.fill_cons.mp hFill
      obtain ⟨colon, _, rfl, hColon, hFill⟩ := Filler.fill_cons.mp hFill
      obtain ⟨stop, _, rfl, hStop, hFill⟩ := Filler.fill_cons.mp hFill
      obtain ⟨stop', rest, rfl, hStop', hFill⟩ := Filler.fill_cons.mp hFill
      obtain ⟨own, hOuter⟩ := ih hFill
      have hTakes : (Spelling.alternative name.value [] .empty).Takes
          (name :: colon :: stop :: stop' :: rest) (stop' :: rest) := by
        refine ⟨[name, colon, stop], rfl, [_], _, rfl, Or.inl ⟨_, rfl, ?_, rfl⟩, [_], _, rfl,
          ⟨_, rfl, hColon⟩, [], _, rfl, rfl, ⟨_, rfl, hStop⟩⟩
        rw [Token.kind_symbol, hName]
        rfl
      have hBody : ∀ {middle stop}, Spelling.empty.Takes middle (stop :: stop' :: rest) →
          stop.kind = .semicolon → Accepts eof (.elements subject outer) middle
            ([.endAlternative] ++ .endCase :: own) := by
        intro middle stop hEmpty hLast
        obtain rfl := Spelling.takes_empty.mp hEmpty
        exact Accepts.endElements hEof hLast hStop' hOuter
      exact ⟨_, Accepts.alternative hEof subject hTakes hBody⟩

/-- An option may come before whatever comes to its end as statements or elements. -/
theorem clear_of_failure (hPlace : place.isAlternatives = false)
    (h : (fromPlace eof place tokens).failure = none) : Clear eof tokens := by
  have hAccepts : Accepts eof place tokens _ := ⟨h, rfl⟩
  cases place with
  | statements =>
      obtain ⟨script, hTakes, -⟩ := (accepts_iff hEof).mp hAccepts
      exact clear_of_script hEof hTakes
  | alternatives subject outer => cases hPlace
  | elements subject outer =>
      obtain ⟨b, stop, rest, _, hTakes, hStop, -⟩ := hAccepts.remains hEof
      exact clear_of_body hTakes hStop

omit hEof

/-- Nothing but the place of the next token tells where an alternative begins that breaks off. The
tokens before it are none, or end with a sign. -/
def Pinned (place : Place) (read : List Token) : Prop :=
  match read.getLast? with
  | none => place.isAlternatives = true
  | some t => Scan.isPunctuation t.kind = true

/-- Whether what was read so far ends in a token whose kind alone tells its bytes is a matter of its
last token. -/
theorem pinned_iff {read : List Token} {t : Token} (ht : read.getLast? = some t) :
    Pinned place read ↔ Scan.isPunctuation t.kind = true := by
  rw [Pinned, ht]

/-- The tokens end with a sign of a kind that is known. -/
theorem pinned_of_kind {read : List Token} {t : Token} {kind : TokenKind}
    (ht : read.getLast? = some t) (hKind : t.kind = kind) (hSign : Scan.isPunctuation kind = true) :
    Pinned place read :=
  (pinned_iff ht).mpr (hKind ▸ hSign)

/-- The tokens before the one that an error is about can be completed: read from the place they come
to an end with fillers behind them, and what was reported before the error stands. -/
def Mended (eof : Token) (place : Place) (tokens : List Token) (events : List (Event × Pos))
    (e : SyntaxError) : Prop :=
  ∃ read blamed fillers, tokens = read ++ blamed ∧ e.About (blamed.headD eof) ∧
    ∀ {eof' more}, eof'.kind = .eof → Fill fillers more →
      (Pinned place read → (more.headD eof').pos = (blamed.headD eof).pos) →
      (fromPlace eof' place (read ++ more)).failure = none ∧
        events <+: located (fromPlace eof' place (read ++ more)).emitted ∧
        (place.isAlternatives = true → ((read ++ more).headD eof').kind = .semicolon →
          (tokens.headD eof).kind = .semicolon)

/-- The step does the same before any tokens that come to an end from where it leads. -/
def Carried (eof : Token) (place : Place) (tokens : List Token) (events : List (Event × Pos))
    (place' : Place) (rest : List Token) : Prop :=
  ∃ read, tokens = read ++ rest ∧ read ≠ [] ∧ (place'.isAlternatives = true → Pinned place read) ∧
    ∀ {eof' rest'}, eof'.kind = .eof → (fromPlace eof' place' rest').failure = none →
      (place'.isAlternatives = true → (rest'.headD eof').kind = .semicolon →
        (rest.headD eof).kind = .semicolon) →
      place.step.told eof' (read ++ rest') = (events, .ok (place', rest'))

/-- A step that breaks off without a token is left out. -/
theorem mended_of_nothing (hPlace : place.isAlternatives = false)
    (hAbout : e.About (tokens.headD eof)) : Mended eof place tokens [] e := by
  refine ⟨[], tokens, place.endFillers, rfl, hAbout, fun {eof' more} hEof' hFill _ => ?_⟩
  obtain ⟨own, hFailure, -⟩ := accepts_endFillers hEof' hFill
  exact ⟨hFailure, List.nil_prefix, fun hOther => nomatch hPlace.symm.trans hOther⟩

/-- A construct that is completed leads to a place from which fillers come to the end. -/
theorem exists_completion {α : Type} {x : Recorder α} {F : Follow} {ends : List Filler}
    (leads : α → Place) (hx : x.Completable F eof tokens)
    (hEnds : ∀ a, (leads a).endFillers = ends)
    (hNext : ∀ {eof more}, eof.kind = .eof → Fill ends more → F eof more)
    (h : x.told eof tokens = (events, .error e)) :
    ∃ read blamed fillers, tokens = read ++ blamed ∧ e.About (blamed.headD eof) ∧
      ∀ {eof' more}, eof'.kind = .eof → Fill fillers more →
        ∃ events' a rest, (x >>= fun a => pure (leads a)).told eof' (read ++ more) =
            (events', .ok (leads a, rest)) ∧
          events <+: events' ∧ (fromPlace eof' (leads a) rest).failure = none := by
  obtain ⟨read, blamed, fillers, hTokens, hAbout, hOther⟩ := hx.breaks h
  refine ⟨read, blamed, fillers ++ ends, hTokens, hAbout, fun {eof' more} hEof' hFill => ?_⟩
  obtain ⟨own, rest, rfl, hOwn, hRest⟩ := Filler.fill_append.mp hFill
  obtain ⟨events', a, hMended, hEvents⟩ := hOther hEof' hOwn (hNext hEof' hRest)
  rw [← hEnds a] at hRest
  obtain ⟨_, hFailure, -⟩ := accepts_endFillers hEof' hRest
  exact ⟨events', a, rest, told_map_eq_ok.mpr ⟨a, hMended, rfl⟩, hEvents, hFailure⟩

/-- A token and what it starts are completed together. -/
theorem mended_of_completion {α : Type} {x : Recorder α} {leads : α → Place} {F : Follow}
    {ends : List Filler} {t : Token} (hPlace : place.isAlternatives = false)
    (hx : x.Completable F eof tokens)
    (hStep : ∀ {eof tokens}, eof.kind = .eof → place.step.told eof (t :: tokens) =
      (x >>= fun a => pure (leads a)).told eof tokens)
    (hEnds : ∀ a, (leads a).endFillers = ends)
    (hNext : ∀ {eof more}, eof.kind = .eof → Fill ends more → F eof more)
    (h : x.told eof tokens = (events, .error e)) : Mended eof place (t :: tokens) events e := by
  obtain ⟨read, blamed, fillers, rfl, hAbout, hOther⟩ := exists_completion leads hx hEnds hNext h
  refine ⟨t :: read, blamed, fillers, rfl, hAbout, fun {eof' more} hEof' hFill _ => ?_⟩
  obtain ⟨events', a, rest, hTold, hEvents, hEnd⟩ := hOther hEof' hFill
  rw [← hStep hEof'] at hTold
  obtain ⟨hFailure, hLocated⟩ := fromPlace_of_told hEof' hTold
  rw [List.cons_append, hFailure, hLocated]
  exact ⟨hEnd, hEvents.trans (List.prefix_append _ _),
    fun hOther => nomatch hPlace.symm.trans hOther⟩

include hEof

/-- Where a construct starts with the token that stands there, an error inside of it is mended
inside of it. -/
theorem mended_of_starts {t : Token} (hPlace : place.isAlternatives = false)
    (hStarts : place.Starts eof t)
    (h : place.step.told eof (t :: tokens) = (events, .error e)) :
    Mended eof place (t :: tokens) events e := by
  cases hStarts with
  | construct hx hStep =>
      rw [hStep hEof] at h
      refine mended_of_completion hPlace (hx.completable tokens) hStep (fun _ => rfl)
        (fun hEof' hFill => ?_) (told_map_eq_error.mp h)
      obtain ⟨_, hFailure, -⟩ := accepts_endFillers hEof' hFill
      exact clear_of_failure hEof' hPlace hFailure
  | case context ht hStep =>
      rw [hStep] at h
      refine mended_of_completion hPlace ((mendable_caseHeader hEof t).completable tokens)
        (fun _ => hStep) (fun _ => rfl) (fun {eof more} _ hFill => ?_) (told_map_eq_error.mp h)
      obtain ⟨name, _, rfl, hName, -⟩ := Filler.fill_cons.mp hFill
      exact noneOf_of_kind hName (by decide)
  | stop place' event ht hStep =>
      rw [hStep] at h
      cases h
  | refused he hStep =>
      rw [hStep] at h
      cases h
      exact mended_of_nothing hPlace he

/-- A construct that has been read can be read again when its tokens are laid out anew, as it
started where it did. -/
theorem carried_of_starts {t : Token} (hPlace : place.isAlternatives = false)
    (hStarts : place.Starts eof t)
    (h : place.step.told eof (t :: tokens) = (events, .ok (place', rest))) :
    Carried eof place (t :: tokens) events place' rest := by
  cases hStarts with
  | construct hx hStep =>
      rw [hStep hEof] at h
      obtain ⟨_, hOwn, rfl⟩ := told_map_eq_ok.mp h
      obtain ⟨read, rfl, hOther⟩ := (hx.completable tokens).reads hOwn
      refine ⟨t :: read, rfl, List.cons_ne_nil _ _,
        fun hOpen => (nomatch hPlace.symm.trans hOpen), fun hEof' hEnd _ => ?_⟩
      rw [List.cons_append, hStep hEof']
      exact told_map_eq_ok.mpr ⟨(), hOther hEof' (clear_of_failure hEof' hPlace hEnd), rfl⟩
  | case context ht hStep =>
      rw [hStep] at h
      obtain ⟨subject, hOwn, rfl⟩ := told_map_eq_ok.mp h
      have hHead : ((t :: tokens).headD eof).kind = .keyword .case := ht
      have hRead : (caseHeader context).Reads eof (t :: tokens) _ subject rest := reads_of_told hOwn
      obtain ⟨hTakes, hNext, -⟩ := (reads_caseHeader hEof hHead).mp hRead
      obtain ⟨read, hTokens, hOther⟩ := ((mendable_caseHeader hEof t).completable tokens).reads hOwn
      simp only [Spelling.takes_next, Spelling.takes_keyword, Spelling.takes_name,
        Spelling.takes_sign] at hTakes
      obtain ⟨_, ⟨_, hStart, -⟩, _, ⟨name, rfl, -⟩, colon, rfl, hColon⟩ := hTakes
      obtain ⟨rfl, rfl⟩ := List.cons.inj hStart
      obtain rfl : [name, colon] = read := List.append_cancel_right hTokens
      refine ⟨[t, name, colon], rfl, List.cons_ne_nil _ _, fun _ => pinned_of_kind rfl hColon rfl,
        fun hEof' _ hSame => ?_⟩
      refine hStep.trans (told_map_eq_ok.mpr ⟨subject, hOther hEof' fun hStop => ?_, rfl⟩)
      exact hNext (hSame rfl (List.mem_singleton.mp hStop))
  | stop place'' event ht hStep =>
      rw [hStep] at h
      cases h
      exact ⟨[t], rfl, List.cons_ne_nil _ _, fun _ => pinned_of_kind rfl ht rfl,
        fun _ _ _ => hStep⟩
  | refused he hStep =>
      rw [hStep] at h
      cases h

end Parse

namespace Place

open Reader

variable {eof t : Token} {tokens rest : List Token} {events : List (Event × Pos)} {subject : Text}
  {outer : Place}

theorem told_endCase (ht : t.kind = .semicolon) :
    (alternatives subject outer).step.told eof (t :: tokens) =
      ([(.endCase, t.pos)], .ok (outer, tokens)) := by
  rw [step, nextAlternative, told_current_bind, List.headD_cons, if_pos ht]
  rfl

/-- An alternative begins with its labels unless the case statement ends, so an error there is one
of the labels. -/
theorem told_alternative (subject : Text) (outer : Place)
    {outcome : Except SyntaxError (Unit × List Token)}
    (hHead : (tokens.headD eof).kind ≠ .semicolon)
    (h : alternativeLabels.told eof tokens = (events, outcome)) :
    (alternatives subject outer).step.told eof tokens =
      ((.beginAlternative, (tokens.headD eof).pos) :: events,
        outcome.map fun (_, rest) => (elements subject outer, rest)) := by
  have hHeader : alternativeHeader.told eof tokens =
      ((.beginAlternative, (tokens.headD eof).pos) :: events, outcome) := by
    obtain ⟨rfl, rfl⟩ := Prod.mk.inj h
    rfl
  rw [step, nextAlternative, told_current_bind, if_neg hHead]
  rcases outcome with e | ⟨_, rest⟩
  · exact told_map_eq_error.mpr hHeader
  · exact told_map_eq_ok.mpr ⟨(), hHeader, rfl⟩

/-- An alternative does not begin with a semicolon. -/
theorem headD_kind_of_alternativeLabels (hEof : eof.kind = .eof)
    (h : alternativeLabels.told eof tokens = (events, .ok ((), rest))) :
    (tokens.headD eof).kind ≠ .semicolon := by
  obtain ⟨_, _, _, _, hLabels, -, -⟩ := told_bind_eq_ok h
  obtain ⟨first, more, hTakes, -⟩ := labels_sound hEof (reads_of_told hLabels)
  exact Spelling.headD_kind_of_labels eof hTakes

end Place

namespace Parse

open Reader
open Filler (Fill)

variable {eof : Token} {tokens rest : List Token} {place place' outer : Place} {subject : Text}
  {events : List (Event × Pos)} {e : SyntaxError} (hEof : eof.kind = .eof)
include hEof

/-- The place of an alternative that breaks off at once is that of the token after a sign. -/
theorem mended_of_alternative
    (h : (Place.alternatives subject outer).step.told eof tokens = (events, .error e)) :
    Mended eof (.alternatives subject outer) tokens events e := by
  by_cases hHead : (tokens.headD eof).kind = .semicolon
  · obtain ⟨t, more, rfl, ht⟩ := cons_of_headD_kind hEof hHead (by decide)
    rw [Place.told_endCase ht] at h
    cases h
  · rcases hLabels : alternativeLabels.told eof tokens with ⟨own, e' | ⟨_, rest⟩⟩ <;>
      rw [Place.told_alternative subject outer hHead hLabels] at h <;> cases h
    obtain ⟨read, blamed, fillers, rfl, hAbout, hOther⟩ := exists_completion
      (fun _ => .elements subject outer) ((mendable_alternativeLabels hEof).completable tokens)
      (fun _ => rfl) (fun _ _ => trivial) hLabels
    refine ⟨read, blamed, fillers, rfl, hAbout, fun {eof' more} hEof' hFill hPinned => ?_⟩
    obtain ⟨events', _, rest, hTold, hEvents, hEnd⟩ := hOther hEof' hFill
    obtain ⟨_, hOwn, -⟩ := told_map_eq_ok.mp hTold
    have hNext := Place.headD_kind_of_alternativeLabels hEof' hOwn
    have hPos : ((read ++ more).headD eof').pos = ((read ++ blamed).headD eof).pos := by
      cases read with
      | nil => exact hPinned rfl
      | cons t read => rfl
    obtain ⟨hFailure, hLocated⟩ :=
      fromPlace_of_told hEof' (Place.told_alternative subject outer hNext hOwn)
    rw [hFailure, hLocated, hPos]
    refine ⟨hEnd, ?_, fun _ hStop => absurd hStop hNext⟩
    exact (List.prefix_cons_inj _).mpr (hEvents.trans (List.prefix_append _ _))

theorem carried_of_alternative
    (h : (Place.alternatives subject outer).step.told eof tokens = (events, .ok (place', rest))) :
    Carried eof (.alternatives subject outer) tokens events place' rest := by
  have hLess := Place.step_length_lt hEof (reads_of_told h)
  by_cases hHead : (tokens.headD eof).kind = .semicolon
  · obtain ⟨t, more, rfl, ht⟩ := cons_of_headD_kind hEof hHead (by decide)
    rw [Place.told_endCase ht] at h
    cases h
    exact ⟨[t], rfl, List.cons_ne_nil _ _, fun _ => pinned_of_kind rfl ht rfl,
      fun _ _ _ => Place.told_endCase ht⟩
  · rcases hLabels : alternativeLabels.told eof tokens with ⟨own, e' | ⟨_, rest⟩⟩ <;>
      rw [Place.told_alternative subject outer hHead hLabels] at h <;> cases h
    obtain ⟨read, rfl, hOther⟩ := ((mendable_alternativeLabels hEof).completable tokens).reads hLabels
    cases read with
    | nil => exact absurd hLess (Nat.lt_irrefl _)
    | cons t read =>
        refine ⟨t :: read, rfl, List.cons_ne_nil _ _, nofun, fun {eof' rest'} hEof' _ _ => ?_⟩
        have hHead' : ((t :: (read ++ rest')).headD eof').kind ≠ .semicolon := hHead
        exact Place.told_alternative subject outer hHead' (hOther hEof' trivial)

omit hEof in
/-- Whatever comes last before the blamed token tells whether its place counts. -/
theorem pinned_append {read : List Token} (more : List Token) (hRead : read ≠ []) :
    Pinned place (more ++ read) ↔ Pinned place' read := by
  rw [Pinned, Pinned, List.getLast?_append, List.getLast?_eq_some_getLast hRead]
  rfl

/-- From whatever place, an error in the next construct can be mended. All places come together
here. -/
theorem mended_of_step (hMore : ¬(place = .statements ∧ tokens = []))
    (h : place.step.told eof tokens = (events, .error e)) : Mended eof place tokens events e := by
  cases place with
  | statements =>
      cases tokens with
      | nil => exact absurd ⟨rfl, rfl⟩ hMore
      | cons t tokens => exact mended_of_starts hEof rfl (Place.starts_statement hEof t) h
  | alternatives subject outer => exact mended_of_alternative hEof h
  | elements subject outer =>
      cases tokens with
      | nil =>
          rw [Place.step, Place.element, told_current_bind, List.headD_nil, hEof] at h
          cases h
          exact mended_of_nothing rfl (SyntaxError.about_unexpected _ _ _)
      | cons t tokens => exact mended_of_starts hEof rfl (Place.starts_element hEof t subject outer) h

/-- From whatever place, a construct that was read is carried over to tokens laid out anew. -/
theorem carried_of_step (h : place.step.told eof tokens = (events, .ok (place', rest))) :
    Carried eof place tokens events place' rest := by
  have hLess := Place.step_length_lt hEof (reads_of_told h)
  cases tokens with
  | nil => cases hLess
  | cons t tokens =>
      cases place with
      | statements => exact carried_of_starts hEof rfl (Place.starts_statement hEof t) h
      | alternatives subject outer => exact carried_of_alternative hEof h
      | elements subject outer =>
          exact carried_of_starts hEof rfl (Place.starts_element hEof t subject outer) h

omit hEof in
/-- A step in front of what is mended. -/
theorem Carried.mended (hStep : Carried eof place tokens events place' rest)
    {own : List (Event × Pos)} (hRest : Mended eof place' rest own e) :
    Mended eof place tokens (events ++ own) e := by
  obtain ⟨front, rfl, hFront, hPinned, hOther⟩ := hStep
  obtain ⟨read, blamed, fillers, rfl, hAbout, hMended⟩ := hRest
  refine ⟨front ++ read, blamed, fillers, (List.append_assoc ..).symm, hAbout,
    fun {eof' more} hEof' hFill hPos => ?_⟩
  have hPlace : Pinned place' read → Pinned place (front ++ read) := by
    intro h
    cases read with
    | nil =>
        rw [List.append_nil]
        exact hPinned h
    | cons t read => exact (pinned_append front (List.cons_ne_nil t read)).mpr h
  obtain ⟨hEnd, hEvents, hSame⟩ := hMended hEof' hFill fun h => hPos (hPlace h)
  obtain ⟨hFailure, hLocated⟩ := fromPlace_of_told hEof' (hOther hEof' hEnd hSame)
  rw [List.append_assoc, hFailure, hLocated]
  refine ⟨hEnd, (List.prefix_append_right_inj events).mpr hEvents, fun _ h => ?_⟩
  cases front with
  | nil => exact absurd rfl hFront
  | cons t front => exact h

/-- Every script that breaks off is completed. -/
theorem mended_of_failure (h : (fromPlace eof place tokens).failure = some (.syntaxError e)) :
    Mended eof place tokens (located (fromPlace eof place tokens).emitted) e := by
  -- A step that succeeds takes a token, and is carried over to whatever completes the rest; the step
  -- that fails is completed itself.
  induction hLength : tokens.length using Nat.strongRecOn generalizing place tokens with
  | ind length ih =>
      by_cases hEnd : place = .statements ∧ tokens = []
      · rw [fromPlace_eq, if_pos hEnd] at h
        cases h
      · rcases hStep : place.step.told eof tokens with ⟨events, e' | ⟨place', rest⟩⟩
        · obtain ⟨emitted, hRead, rfl⟩ := exists_of_told hStep
          rw [fromPlace_eq, if_neg hEnd, hRead] at h ⊢
          cases h
          have hEvents : located (emitted ++ [.note e.record]) = located emitted := by
            rw [located_append]
            exact List.append_nil _
          rw [hEvents]
          exact mended_of_step hEof hEnd hStep
        · have hLess := Place.step_length_lt hEof (reads_of_told hStep)
          obtain ⟨hFailure, hLocated⟩ := fromPlace_of_told hEof hStep
          rw [hFailure] at h
          rw [hLocated]
          exact (carried_of_step hEof hStep).mended (ih _ (hLength ▸ hLess) h rfl)

end Parse

end Runsheet
