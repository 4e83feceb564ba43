import Runsheet.Proofs.Engine.History
import Runsheet.Proofs.Engine.Invariant
import Mathlib.Data.List.Induction

/-! The final selections, told from the events that were taken and from the directives. Whatever else
a script does between its select statements, and whatever is refused on the way, the selections are
the requests without repetitions, or the default of the only choice when nothing is asked for. -/
namespace Runsheet

namespace State

open History

variable {config : Config} {s s' : State} {e : Event} {pos : Pos} {events : List Event}

/-- The engine holds what the events tell, as long as the script has not ended. -/
structure Told (directives : List Directive) (events : List Event) (s : State) : Prop where
  names : ∀ kind name, name ∈ (s.registry kind).names ↔ .declare kind name ∈ events
  labels : ∀ name, s.choices.labelsOf name = History.labels name events
  selections : s.selections = (requests directives events).eraseDups
  selects : ∀ name, History.selects name events = true → name ∈ s.choices.names
  states : ∀ name ∈ s.choices.names,
    s.choices.stateOf? name = some (scriptState directives events name)
  opened : s.cases.map CaseCheck.subject = openSubjects events
  closed : ∀ x ∈ closedSubjects events, ∃ kind, .declare kind x ∈ events
  occurred : s.choiceCaseOccurred = true ↔
    ∃ x ∈ closedSubjects events, .declare .choice x ∈ events

namespace Told

variable {directives : List Directive}

theorem empty (directives : List Directive) : Told directives [] {} where
  names := by
    intro kind name
    cases kind <;> simp [State.registry, Registry.names]
  labels := fun _ => rfl
  selections := rfl
  selects := nofun
  states := nofun
  opened := rfl
  closed := nofun
  occurred := by simp [closedSubjects]

/-- Only what the events tell of matters. -/
theorem congr (h : Told directives events s)
    (hNames : ∀ kind, (s'.registry kind).names = (s.registry kind).names)
    (hLabels : ∀ name, s'.choices.labelsOf name = s.choices.labelsOf name)
    (hStates : ∀ name, s'.choices.stateOf? name = s.choices.stateOf? name)
    (hSelections : s'.selections = s.selections)
    (hSubjects : s'.cases.map CaseCheck.subject = s.cases.map CaseCheck.subject)
    (hOccurred : s'.choiceCaseOccurred = s.choiceCaseOccurred) : Told directives events s' where
  names := by
    intro kind name
    rw [hNames]
    exact h.names kind name
  labels := fun name => (hLabels name).trans (h.labels name)
  selections := hSelections.trans h.selections
  selects := by
    intro name hSelects
    have hName := hNames .choice
    rw [State.registry, State.registry] at hName
    rw [hName]
    exact h.selects name hSelects
  states := by
    intro name hName
    have hSame := hNames .choice
    rw [State.registry, State.registry] at hSame
    rw [hStates]
    exact h.states name (hSame ▸ hName)
  opened := hSubjects.trans h.opened
  closed := h.closed
  occurred := by
    rw [hOccurred]
    exact h.occurred

/-- Only choices, selections and case statements matter. -/
theorem of_fields (h : Told directives events s) (hChoices : s'.choices = s.choices)
    (hInputs : s'.inputs = s.inputs) (hSelections : s'.selections = s.selections)
    (hSubjects : s'.cases.map CaseCheck.subject = s.cases.map CaseCheck.subject)
    (hOccurred : s'.choiceCaseOccurred = s.choiceCaseOccurred) : Told directives events s' := by
  refine h.congr ?_ (by simp [hChoices]) (by simp [hChoices]) hSelections hSubjects hOccurred
  intro kind
  cases kind <;> simp [State.registry, hChoices, hInputs]

/-- An update of an axis that neither adds labels nor selects. -/
theorem modify {f : Axis → Axis} (h : Told directives events s) (kind : AxisKind) (name : Text)
    (hName : ∀ a, (f a).name = a.name) (hLabels : ∀ a, (f a).labels = a.labels)
    (hState : ∀ a, (f a).state = a.state) :
    Told directives events (s.setRegistry kind ((s.registry kind).modify name f)) := by
  have hNames : ∀ r : Registry, (r.modify name f).names = r.names :=
    fun r => Registry.names_modify r name hName
  cases kind with
  | input =>
      refine h.congr (fun kind => ?_) (fun _ => rfl) (fun _ => rfl) rfl rfl rfl
      cases kind with
      | choice => rfl
      | input => exact hNames s.inputs
  | choice =>
      refine h.congr (fun kind => ?_) (fun other => ?_) (fun other => ?_) rfl rfl rfl
      · cases kind with
        | choice => exact hNames s.choices
        | input => rfl
      · exact Registry.labelsOf_modify s.choices name hName hLabels other
      · exact Registry.stateOf?_modify s.choices name hName hState other

/-- A silent event tells of case statements at most. -/
theorem withCases (h : Told directives events s) (he : isSilent e = true)
    (hDeclares : ∀ kind name, .declare kind name ≠ e)
    (hRegistry : ∀ kind, s'.registry kind = s.registry kind)
    (hSelections : s'.selections = s.selections)
    (hOpened : s'.cases.map CaseCheck.subject = openSubjects (events ++ [e]))
    (hClosed : ∀ x ∈ closedSubjects (events ++ [e]), ∃ kind, .declare kind x ∈ events)
    (hOccurred : s'.choiceCaseOccurred = true ↔
      ∃ x ∈ closedSubjects (events ++ [e]), .declare .choice x ∈ events) :
    Told directives (events ++ [e]) s' := by
  have hMem : ∀ kind name, .declare kind name ∈ events ++ [e] ↔ .declare kind name ∈ events := by
    intro kind name
    rw [List.mem_append, List.mem_singleton, or_iff_left (hDeclares kind name)]
  have hChoices : s'.choices = s.choices := hRegistry .choice
  constructor
  · intro kind name
    rw [hMem, hRegistry]
    exact h.names kind name
  · intro name
    rw [labels_silent he, hChoices]
    exact h.labels name
  · rw [requests_silent he, hSelections]
    exact h.selections
  · intro name
    rw [selects_silent he, hChoices]
    exact h.selects name
  · intro name
    rw [scriptState, selects_silent he, hChoices]
    exact h.states name
  · exact hOpened
  · simpa only [hMem] using hClosed
  · simpa only [hMem] using hOccurred

/-- Idle events tell nothing. -/
theorem idle (h : Told directives events s) (he : isIdle e = true) :
    Told directives (events ++ [e]) s := by
  have hDeclares : ∀ kind name, .declare kind name ≠ e := by
    rintro kind name rfl
    cases he
  have hQuiet : (isSilent e && !boundsCase e) = true := by
    cases e with
    | declare kind name => cases he
    | _ => exact he
  obtain ⟨hSilent, hCases⟩ := Bool.and_eq_true_iff.mp hQuiet
  obtain ⟨hOpened, hClosed⟩ := subjects_silent (by simpa using hCases) events
  refine h.withCases hSilent hDeclares (fun _ => rfl) rfl ?_ ?_ ?_
  · exact h.opened.trans hOpened.symm
  · rw [hClosed]
    exact h.closed
  · rw [hClosed]
    exact h.occurred

/-- A name that no axis has was never declared. -/
theorem not_declared (h : Told directives events s) {kind : AxisKind} {name : Text}
    (hOther : name ∉ (s.otherRegistry kind).names) (hNew : name ∉ (s.registry kind).names)
    (kind' : AxisKind) : Event.declare kind' name ∉ events := by
  intro hMem
  have hDeclared := (h.names kind' name).mpr hMem
  cases kind <;> cases kind' <;> first | exact hNew hDeclared | exact hOther hDeclared

/-- A new choice was never selected, and the state of every other one is what it was. -/
theorem stateOf?_append (h : Told directives events s) {a : Axis} (ha : a.state = .none)
    {name : Text} (hName : name ∈ (s.choices.append a).names) :
    (s.choices.append a).stateOf? name = some (scriptState directives events name) := by
  rw [Registry.stateOf?_append]
  split
  · rename_i hOld
    exact h.states name hOld
  · rename_i hOld
    rw [Registry.names_append, List.mem_append, List.mem_singleton] at hName
    have hSame : a.name = name := (hName.resolve_left hOld).symm
    have hUnselected : History.selects name events = false :=
      Bool.eq_false_iff.mpr fun hSelects => hOld (h.selects name hSelects)
    rw [if_pos hSame, ha, scriptState, hUnselected]
    rfl

/-- A new name, which has no labels and was never selected. -/
theorem declare (h : Told directives events s) {kind : AxisKind} {name : Text}
    (hDeclare : s.declare kind name pos = (s', none)) :
    Told directives (events ++ [.declare kind name]) s' := by
  obtain ⟨hOther, hNew, diary, rfl⟩ := declare_eq_none hDeclare
  rw [Registry.get?_eq_none_iff] at hOther hNew
  have he : isSilent (.declare kind name) = true := rfl
  obtain ⟨hOpened, hClosed⟩ := subjects_silent (e := .declare kind name) rfl events
  -- No case statement was over the new name, so it makes none that is closed one over a choice.
  have hOver : ∀ x ∈ closedSubjects events,
      (Event.declare .choice x ∈ events ++ [.declare kind name] ↔ .declare .choice x ∈ events) := by
    intro x hx
    rw [List.mem_append, List.mem_singleton, or_iff_left]
    intro hSame
    obtain ⟨-, rfl⟩ := Event.declare.inj hSame
    obtain ⟨kind', hMem⟩ := h.closed x hx
    exact h.not_declared hOther hNew kind' hMem
  constructor
  · intro kind' name'
    rw [List.mem_append, ← h.names, List.mem_singleton, Event.declare.injEq]
    cases kind <;> cases kind' <;> simp [State.registry, State.setRegistry]
  · intro name'
    rw [labels_silent he, ← h.labels]
    cases kind with
    | input => rfl
    | choice => exact Registry.labelsOf_append s.choices rfl name'
  · rw [requests_silent he]
    cases kind <;> exact h.selections
  · intro name' hSelects
    rw [selects_silent he] at hSelects
    have hOld := h.selects name' hSelects
    cases kind with
    | input => exact hOld
    | choice =>
        change name' ∈ (s.choices.append _).names
        rw [Registry.names_append]
        exact List.mem_append_left _ hOld
  · intro name' hName
    rw [scriptState, selects_silent he]
    cases kind with
    | input => exact h.states name' hName
    | choice => exact h.stateOf?_append rfl hName
  · rw [hOpened]
    cases kind <;> exact h.opened
  · intro x hx
    rw [hClosed] at hx
    obtain ⟨kind', hMem⟩ := h.closed x hx
    exact ⟨kind', List.mem_append_left _ hMem⟩
  · have hOccurred : s.choiceCaseOccurred = true ↔
        ∃ x ∈ closedSubjects events, Event.declare .choice x ∈ events ++ [.declare kind name] := by
      rw [h.occurred]
      exact exists_congr fun x => and_congr_right fun hx => (hOver x hx).symm
    rw [hClosed]
    cases kind <;> exact hOccurred

/-- An event that declares nothing and bounds no case statement: names and case statements stay as
they are, so only labels and selections are left to tell. -/
theorem sameNames (h : Told directives events s) (hDeclares : ∀ kind name, .declare kind name ≠ e)
    (hBounds : boundsCase e = false)
    (hNames : ∀ kind, (s'.registry kind).names = (s.registry kind).names)
    (hSubjects : s'.cases.map CaseCheck.subject = s.cases.map CaseCheck.subject)
    (hOccurred : s'.choiceCaseOccurred = s.choiceCaseOccurred)
    (hLabels : ∀ name, s'.choices.labelsOf name = History.labels name (events ++ [e]))
    (hSelections : s'.selections = (requests directives (events ++ [e])).eraseDups)
    (hSelects : ∀ name, History.selects name (events ++ [e]) = true → name ∈ s.choices.names)
    (hStates : ∀ name ∈ s.choices.names,
      s'.choices.stateOf? name = some (scriptState directives (events ++ [e]) name)) :
    Told directives (events ++ [e]) s' := by
  have hMem : ∀ kind name, .declare kind name ∈ events ++ [e] ↔ .declare kind name ∈ events := by
    intro kind name
    rw [List.mem_append, List.mem_singleton, or_iff_left (hDeclares kind name)]
  have hChoices : s'.choices.names = s.choices.names := hNames .choice
  obtain ⟨hOpened, hClosed⟩ := subjects_silent hBounds events
  constructor
  · intro kind name
    rw [hMem, hNames]
    exact h.names kind name
  · exact hLabels
  · exact hSelections
  · rw [hChoices]
    exact hSelects
  · rw [hChoices]
    exact hStates
  · exact (hSubjects.trans h.opened).trans hOpened.symm
  · simpa only [hClosed, hMem] using h.closed
  · simpa only [hClosed, hMem, hOccurred] using h.occurred

/-- A new label of a choice; labels of an input axis are never asked for. -/
theorem addLabel {kind : AxisKind} {name label : Text} (h : Told directives events s)
    (hAdd : s.addLabel kind name label pos = (s', none)) :
    Told directives (events ++ [.addLabel kind name label]) s' := by
  obtain ⟨a, diary, ha, -, -, rfl⟩ := addLabel_eq_none hAdd
  have hNames : ∀ r : Registry, (r.modify name (·.addBranch label)).names = r.names :=
    fun r => Registry.names_modify r name fun b => b.name_addBranch label
  cases kind with
  | input =>
      refine idle ?_ rfl
      refine h.congr ?_ (fun _ => rfl) (fun _ => rfl) rfl rfl rfl
      intro kind
      cases kind with
      | choice => rfl
      | input => exact hNames s.inputs
  | choice =>
      have hLabels : ∀ x, History.labels x [.addLabel .choice name label] =
          if name = x then [label] else [] := by
        intro x
        by_cases hSame : name = x <;> simp [History.labels, hSame]
      have hSelects : ∀ x, History.selects x (events ++ [.addLabel .choice name label]) =
          History.selects x events := by
        intro x
        rw [selects_append]
        exact Bool.or_false _
      have hStates := Registry.stateOf?_modify s.choices name (f := (·.addBranch label))
        (fun b => b.name_addBranch label) fun _ => rfl
      refine h.sameNames (fun _ _ hSame => by cases hSame) rfl (fun kind => ?_) rfl rfl
        (fun x => ?_) ?_ (fun x hx => ?_) fun x hx => ?_
      · cases kind with
        | choice => exact hNames s.choices
        | input => rfl
      · rw [labels_append, ← h.labels, hLabels]
        exact Registry.labelsOf_addBranch ha x
      · rw [requests_append]
        exact h.selections.trans (by simp [request])
      · exact h.selects x (hSelects x ▸ hx)
      · rw [scriptState, hSelects]
        exact (hStates x).trans (h.states x hx)

/-- A case statement marks its subject as used and opens a check over it. Neither labels nor
selections change, so what has been told so far stays true. -/
theorem beginCase {subject : Text} (h : Told directives events s) (hSound : s.Sound)
    (hBegin : s.beginCase subject pos = (s', none)) :
    Told directives (events ++ [.beginCase subject]) s' := by
  obtain ⟨a, diary, ha, rfl⟩ := beginCase_eq_none hBegin
  have hName : a.name = subject := (Registry.get?_eq_some (hSound.get?_of_axis? ha)).2
  have hMarked := h.modify a.kind subject (f := ({ · with usedInCase := true }))
    (fun _ => rfl) (fun _ => rfl) (fun _ => rfl)
  refine hMarked.withCases rfl (fun _ _ hSame => by cases hSame) (fun kind => ?_) ?_ ?_ ?_ ?_
  · cases kind <;> cases a.kind <;> rfl
  · cases a.kind <;> rfl
  · rw [openSubjects, caseStep_append, ← h.opened]
    simp [caseStep, CaseCheck.start, hName]
  · rw [closedSubjects, caseStep_append]
    exact h.closed
  · rw [closedSubjects, caseStep_append]
    exact hMarked.occurred.trans Iff.rfl

/-- A case statement that ends leaves the list of open ones and joins the closed ones, in the order
in which they end. -/
theorem endCase (h : Told directives events s) (hSound : s.Sound)
    (hEnd : s.endCase pos = (s', none)) : Told directives (events ++ [.endCase]) s' := by
  obtain ⟨c, cs, diary, hCases, -, -, -, rfl⟩ := endCase_eq_none hEnd
  obtain ⟨a, ha, -⟩ := hSound.cases c (hCases ▸ List.mem_cons_self)
  have hSubject : c.subject ∈ (s.registry c.kind).names :=
    Registry.get?_isSome_iff.mp (by rw [ha]; rfl)
  have hOpened := h.opened
  rw [hCases, List.map_cons] at hOpened
  have hClosed : closedSubjects (events ++ [.endCase]) = closedSubjects events ++ [c.subject] := by
    rw [closedSubjects, caseStep_append, ← hOpened]
    rfl
  -- Names are shared by the two sorts of axes, so the subject tells the sort of the statement.
  have hKind : c.kind = .choice ↔ .declare .choice c.subject ∈ events := by
    rw [← h.names]
    constructor
    · intro hChoice
      exact hChoice ▸ hSubject
    · intro hChoice
      cases hSort : c.kind with
      | choice => rfl
      | input =>
          rw [hSort] at hSubject
          exact absurd hSubject (hSound.disjoint c.subject hChoice)
  refine h.withCases rfl (fun _ _ hSame => by cases hSame) (fun kind => by cases kind <;> rfl) rfl
    ?_ ?_ ?_
  · rw [openSubjects, caseStep_append, ← hOpened]
    rfl
  · intro x hx
    rw [hClosed, List.mem_append, List.mem_singleton] at hx
    rcases hx with hOld | rfl
    · exact h.closed x hOld
    · exact ⟨c.kind, (h.names _ _).mp hSubject⟩
  · rw [hClosed]
    simp only [Bool.or_eq_true, beq_iff_eq, h.occurred, hKind, List.mem_append,
      List.mem_singleton]
    constructor
    · rintro (⟨x, hx, hDeclared⟩ | hDeclared)
      · exact ⟨x, Or.inl hx, hDeclared⟩
      · exact ⟨c.subject, Or.inr rfl, hDeclared⟩
    · rintro ⟨x, hx | rfl, hDeclared⟩
      · exact Or.inl ⟨x, hx, hDeclared⟩
      · exact Or.inr hDeclared

/-- A select statement that is taken asks for what it says, unless a directive names the same
choice. What was selected before is not selected twice. -/
theorem select {config : Config} {choice label : Text} (h : Told config.directives events s)
    (hSound : s.Sound) (hSelect : State.select config s choice label pos = (s', none)) :
    Told config.directives (events ++ [.select choice label]) s' := by
  obtain ⟨r, hMet, rfl⟩ := select_eq_none hSelect
  obtain ⟨hSame, -⟩ := Resolver.selectInScript_spec hMet
  obtain ⟨hName, hSelections, hStates⟩ :=
    hSound.resolver.selectInScript_requests h.selections hMet
  have hSelects : ∀ x, History.selects x (events ++ [.select choice label]) =
      (History.selects x events || choice == x) := by
    intro x
    rw [selects_append]
    simp [History.selects]
  refine h.sameNames (fun _ _ hSame => by cases hSame) rfl (fun kind => ?_) rfl rfl
    (fun x => ?_) ?_ (fun x hx => ?_) fun x hx => ?_
  · cases kind with
    | choice => exact hSame.names_eq
    | input => rfl
  · rw [labels_append, ← h.labels]
    exact (hSame.labelsOf_eq x).trans (List.append_nil _).symm
  · rw [requests_append, request, ← h.labels]
    exact hSelections
  · rw [hSelects, Bool.or_eq_true, beq_iff_eq] at hx
    rcases hx with hOld | rfl
    · exact h.selects x hOld
    · exact hName
  · rw [hStates, scriptState, hSelects]
    by_cases hNew : x = choice ∧ config.directives.any (·.choice == choice) = false
    · obtain ⟨rfl, hFree⟩ := hNew
      simp [hFree]
    · rw [if_neg hNew, h.states x hx, scriptState]
      by_cases hNamed : choice = x
      · subst hNamed
        have hGiven : config.directives.any (·.choice == choice) = true := by
          simpa using hNew
        simp [hGiven]
      · simp [hNamed]

/-- Every event that is taken, up to the end of the script. -/
theorem take (h : Told config.directives events s) (hSound : s.Sound)
    (hTake : s.take config e pos = (s', none)) (hEnd : e ≠ .endScript) :
    Told config.directives (events ++ [e]) s' := by
  cases e with
  | beginScript =>
      obtain ⟨-, diary, rfl⟩ := beginScript_eq_none hTake
      refine idle ?_ rfl
      exact h.of_fields rfl rfl rfl rfl rfl
  | setTool name =>
      obtain ⟨-, diary, rfl⟩ := setTool_eq_none hTake
      refine idle ?_ rfl
      exact h.of_fields rfl rfl rfl rfl rfl
  | addSource name =>
      obtain ⟨diary, hSource⟩ := addSource_eq s name pos
      simp only [State.take, hSource, Prod.mk.injEq, and_true] at hTake
      subst hTake
      refine idle ?_ rfl
      exact h.of_fields rfl rfl rfl rfl rfl
  | addSwitch switch =>
      obtain ⟨b, bs, diary, -, rfl⟩ := addSwitch_eq_none hTake
      refine idle ?_ rfl
      exact h.of_fields rfl rfl rfl rfl rfl
  | declare kind name => exact h.declare hTake
  | addLabel kind name label => exact h.addLabel hTake
  | setDefault kind name label =>
      obtain ⟨a, diary, -, -, rfl⟩ := setDefault_eq_none hTake
      have hSet := h.modify kind name (f := ({ · with default := label }))
        (fun _ => rfl) (fun _ => rfl) fun _ => rfl
      refine idle ?_ rfl
      exact hSet.of_fields rfl rfl rfl rfl rfl
  | beginCase subject => exact h.beginCase hSound hTake
  | beginAlternative =>
      obtain ⟨c, cs, diary, hCases, -, -, rfl⟩ :=
        beginAlternative_eq_none hTake
      refine idle ?_ rfl
      exact h.of_fields rfl rfl rfl (by simp [hCases]) rfl
  | addAlternativeLabel label =>
      obtain ⟨c, cs, diary, hCases, -, -, -, rfl⟩ :=
        addAlternativeLabel_eq_none hTake
      refine idle ?_ rfl
      exact h.of_fields rfl rfl rfl (by simp [hCases]) rfl
  | endAlternative =>
      obtain ⟨c, cs, b, b', bs, diary, hCases, -, -, -, rfl⟩ := endAlternative_eq_none hTake
      have hEnriched := h.modify c.kind c.subject (f := (·.enrich c.current b))
        (fun _ => rfl) (fun a => a.labels_enrich _ _) fun _ => rfl
      refine idle ?_ rfl
      exact hEnriched.of_fields rfl rfl rfl (by simp [hCases]) rfl
  | endCase => exact h.endCase hSound hTake
  | select choice label => exact h.select hSound hTake
  | endScript => exact absurd rfl hEnd

/-- A call that is refused tells nothing, unless it ends the script. -/
theorem refused (h : Told directives events s) (hRefused : Refused s e s')
    (hDone : s'.done = false) : Told directives events s' := by
  cases hRefused with
  | unchanged => exact h
  | closed hCases => exact h.of_fields rfl rfl rfl (by simp [hCases]) rfl
  | withoutBlock hCases => exact h.of_fields rfl rfl rfl (by simp [hCases]) rfl
  | @withoutTarget c cs b b' bs diary hCases =>
      have hEnriched := h.modify c.kind c.subject (f := (·.enrich c.current b))
        (fun _ => rfl) (fun a => a.labels_enrich _ _) fun _ => rfl
      exact hEnriched.of_fields rfl rfl rfl (by simp [hCases]) rfl
  | ended => cases hDone

end Told

/-- Nothing but the end of a script ends it. -/
theorem done_of_take (hTake : s.take config e pos = (s', none)) (hEnd : e ≠ .endScript) :
    s'.done = s.done := by
  cases e with
  | beginScript =>
      obtain ⟨-, diary, rfl⟩ := beginScript_eq_none hTake
      rfl
  | setTool name =>
      obtain ⟨-, diary, rfl⟩ := setTool_eq_none hTake
      rfl
  | addSource name =>
      obtain ⟨diary, hSource⟩ := addSource_eq s name pos
      simp only [State.take, hSource, Prod.mk.injEq, and_true] at hTake
      subst hTake
      rfl
  | addSwitch switch =>
      obtain ⟨b, bs, diary, -, rfl⟩ := addSwitch_eq_none hTake
      rfl
  | declare kind name =>
      obtain ⟨-, -, diary, rfl⟩ := declare_eq_none hTake
      exact done_setRegistry s kind _
  | addLabel kind name label =>
      obtain ⟨a, diary, -, -, -, rfl⟩ := addLabel_eq_none hTake
      exact done_setRegistry s kind _
  | setDefault kind name label =>
      obtain ⟨a, diary, -, -, rfl⟩ := setDefault_eq_none hTake
      exact done_setRegistry s kind _
  | beginCase subject =>
      obtain ⟨a, diary, -, rfl⟩ := beginCase_eq_none hTake
      exact done_setRegistry s a.kind _
  | beginAlternative =>
      obtain ⟨c, cs, diary, -, -, -, rfl⟩ := beginAlternative_eq_none hTake
      rfl
  | addAlternativeLabel label =>
      obtain ⟨c, cs, diary, -, -, -, -, rfl⟩ :=
        addAlternativeLabel_eq_none hTake
      rfl
  | endAlternative =>
      obtain ⟨c, cs, b, b', bs, diary, -, -, -, -, rfl⟩ := endAlternative_eq_none hTake
      exact done_setRegistry s c.kind _
  | endCase =>
      obtain ⟨c, cs, diary, -, -, -, -, rfl⟩ := endCase_eq_none hTake
      rfl
  | select choice label =>
      obtain ⟨r, -, rfl⟩ := select_eq_none hTake
      rfl
  | endScript => exact absurd rfl hEnd

/-- A script whose end is taken has ended; so has one whose end was due and then failed. -/
theorem done_endScript (h : endScript config s pos = (s', none)) : s'.done = true := by
  obtain ⟨-, -, r, sources, plan, diary, -, -, -, -, rfl⟩ := endScript_eq_none h
  rfl

/-- A script that has not ended after a call had not ended before it. -/
theorem running_of_take (h : (s.take config e pos).1.done = false) : s.done = false := by
  cases hTake : s.take config e pos with
  | mk s' failure =>
      rw [hTake] at h
      cases failure with
      | some f =>
          cases refused_of_take hTake with
          | ended => cases h
          | @withoutTarget c => exact (done_setRegistry s c.kind _).symm.trans h
          | _ => exact h
      | none =>
          by_cases hEnd : e = .endScript
          · subst hEnd
            cases (done_endScript hTake).symm.trans h
          · exact (done_of_take hTake hEnd).symm.trans h

/-- As long as the script has not ended, the engine holds what the taken events tell. -/
theorem told_after (config : Config) (calls : List Call)
    (hDone : (after config {} calls).done = false) :
    Told config.directives (accepted config {} calls) (after config {} calls) := by
  induction calls using List.reverseRecOn with
  | nil => exact .empty config.directives
  | append_singleton calls c ih =>
      rw [after_append] at hDone ⊢
      rw [accepted_append]
      have hSound : (after config {} calls).Sound := sound_after config calls
      have hTold := ih (running_of_take hDone)
      cases hTake : (after config {} calls).take config c.1 c.2 with
      | mk s' failure =>
          have hAfter : after config (after config {} calls) [c] = s' := congrArg Prod.fst hTake
          rw [hAfter] at hDone ⊢
          cases failure with
          | some f =>
              simpa [accepted, step, hTake] using hTold.refused (refused_of_take hTake) hDone
          | none =>
              have hEnd : c.1 ≠ .endScript := by
                intro hEnd
                rw [hEnd] at hTake
                cases (done_endScript hTake).symm.trans hDone
              simpa [accepted, step, hTake] using hTold.take hSound hTake hEnd

/-- The selections of an ended script come of the directives and of one attempt to resolve what is
left. -/
theorem endScript_selections (h : endScript config s pos = (s', none)) :
    s.done = false ∧ ∃ r₁ r₂ selections,
      s.toResolver.applyDirectives config.directives = (r₁, none) ∧
      r₁.resolve s.choiceCaseOccurred pos = (r₂, .ok selections) ∧
      s'.choices = r₂.choices ∧ s'.selections = r₂.selections := by
  rw [endScript] at h
  split at h
  · cases h
  · rename_i hViolation
    dsimp only at h
    split at h
    · cases h
    · rename_i r₁ hApply
      split at h
      · cases h
      · rename_i r₂ selections hResolve
        obtain ⟨-, sources, plan, diary, -, -, rfl⟩ := makePlan_eq_none h
        refine ⟨?_, r₁, r₂, selections, hApply, hResolve, rfl, rfl⟩
        rw [endViolation?] at hViolation
        split at hViolation
        · cases hViolation
        · rename_i hRunning
          simpa using hRunning

/-- How labels are resolved: the engine's final selections and choices, told from the directives and
from the events that were taken before the end. -/
structure Resolved (directives : List Directive) (events : List Event) (s : State) : Prop where
  names : ∀ name, name ∈ s.choices.names ↔ .declare .choice name ∈ events
  labels : ∀ name, s.choices.labelsOf name = History.labels name events
  requested : asked directives events ≠ [] →
    s.selections = (asked directives events).eraseDups
  defaulted : asked directives events = [] → ∀ a, s.choices.axes = [a] →
    ∃ l, a.defaultLabel? = some l ∧ s.selections = [⟨a.name, l⟩]
  unselected : asked directives events = [] → s.choices.axes.length ≠ 1 → s.selections = []
  several : asked directives events = [] → 2 ≤ s.choices.axes.length →
    ∀ x ∈ closedSubjects events, .declare .choice x ∉ events
  declared : ∀ x ∈ s.selections, ∃ a, s.choices.get? x.choice = some a ∧ x.label ∈ a.labels
  selected : ∀ a ∈ s.choices.axes,
    a.selected = (s.selections.filter (·.choice == a.name)).map Selection.label
  states : ∀ a ∈ s.choices.axes, a.state = finalState directives events a.name

/-- What the directives make of what the select statements asked for. -/
theorem Told.directed {r : Resolver} (h : Told config.directives events s) (hSound : s.Sound)
    (hApply : s.toResolver.applyDirectives config.directives = (r, none)) :
    r.selections = (asked config.directives events).eraseDups ∧
      ∀ name ∈ s.choices.names,
        r.choices.stateOf? name = some (finalState config.directives events name) := by
  obtain ⟨hSelections, hStates⟩ :=
    hSound.resolver.applyDirectives_requests h.selections hApply
  constructor
  · simp only [h.labels] at hSelections
    exact hSelections
  · intro name hName
    rw [hStates, h.states name hName, finalState, scriptState]
    by_cases hNamed : config.directives.any (·.choice == name) = true
    · simp [hNamed]
    · simp [hNamed]

/-- What is left open when nothing is asked for. -/
theorem resolve_default {r r' : Resolver} {occurred : Bool} {selections : List Selection}
    (h : r.resolve occurred pos = (r', .ok selections)) :
    (∀ name, r'.choices.stateOf? name = r.choices.stateOf? name) ∧
      (r.selections ≠ [] → r'.selections = r.selections) ∧
      (r.selections = [] →
        (∀ a, r'.choices.axes = [a] →
          ∃ l, a.defaultLabel? = some l ∧ r'.selections = [⟨a.name, l⟩]) ∧
        (r'.choices.axes.length ≠ 1 → r'.selections = []) ∧
        (2 ≤ r'.choices.axes.length → occurred = false)) := by
  rcases Resolver.resolve_eq_ok h with ⟨hSome, rfl⟩ | ⟨hNone, a, l, hAxes, hDefault, hAdd, hOne⟩ |
    ⟨hNone, rfl, hLength, hOccurred⟩
  · exact ⟨fun _ => rfl, fun _ => rfl, fun hNone => absurd hNone hSome⟩
  · have hOnly : r'.choices.axes = [{ a with selected := a.selected ++ [l] }] := by
      simp [hAdd, Resolver.add, Registry.modify, hAxes]
    refine ⟨fun name => ?_, absurd hNone, fun _ => ⟨fun b hb => ?_, ?_, ?_⟩⟩
    · rw [hAdd]
      exact Registry.stateOf?_modify r.choices a.name
        (f := fun b => { b with selected := b.selected ++ [l] }) (fun _ => rfl) (fun _ => rfl) name
    · rw [hOnly, List.singleton_inj] at hb
      exact hb ▸ ⟨l, hDefault, hOne⟩
    · simp [hOnly]
    · simp [hOnly]
  · exact ⟨fun _ => rfl, fun _ => rfl, fun _ =>
      ⟨fun a ha => absurd (congrArg List.length ha) hLength, fun _ => hNone, hOccurred⟩⟩

/-- Whenever the end of a script is taken, its labels are resolved from what was taken before. -/
theorem resolved_of_endScript {calls : List Call}
    (hEnd : (after config {} calls).step config .endScript pos = (s', none)) :
    Resolved config.directives (accepted config {} calls) s' := by
  have hTake : endScript config (after config {} calls) pos = (s', none) :=
    Prod.ext (congrArg Prod.fst hEnd :)
      (step_snd_eq_none_iff.mp (congrArg Prod.snd hEnd : _ = none))
  obtain ⟨hDone, r₁, r₂, selections, hApply, hResolve, hChoices, hSelections⟩ :=
    endScript_selections hTake
  have hSound := sound_after config calls
  have hTold := told_after config calls hDone
  have hEnded : s'.Sound := hSound.take (e := .endScript) hTake
  have hSame : (after config {} calls).choices.SameButSelected s'.choices := by
    obtain ⟨-, -, r, sources, plan, diary, hSame, -, -, -, rfl⟩ := endScript_eq_none hTake
    exact hSame
  obtain ⟨hAsked, hDirected⟩ := hTold.directed hSound hApply
  obtain ⟨hStates, hRequested, hDefault⟩ := resolve_default hResolve
  rw [← hChoices, ← hSelections, hAsked] at hDefault
  rw [← hSelections, hAsked] at hRequested
  simp only [ne_eq, eraseDups_eq_nil_iff] at hRequested hDefault
  constructor
  · intro name
    rw [hSame.names_eq]
    exact hTold.names .choice name
  · intro name
    rw [hSame.labelsOf_eq]
    exact hTold.labels name
  · exact hRequested
  · exact fun hNone => (hDefault hNone).1
  · exact fun hNone => (hDefault hNone).2.1
  · intro hNone hLength x hx hDeclared
    have hOccurred := hTold.occurred.mpr ⟨x, hx, hDeclared⟩
    rw [(hDefault hNone).2.2 hLength] at hOccurred
    cases hOccurred
  · exact fun _ hx => hEnded.resolver.label_declared hx
  · exact hEnded.resolver.selected
  · intro a ha
    have hName : a.name ∈ (after config {} calls).choices.names :=
      hSame.names_eq ▸ List.mem_map_of_mem ha
    have hState := (hStates a.name).trans (hDirected a.name hName)
    rw [← hChoices, Registry.stateOf?,
      Registry.get?_of_mem hEnded.resolver.choices.names_nodup ha] at hState
    exact Option.some_inj.mp hState

/-- Requests that overlap; one of them is refused and one gives way to a directive. -/
def mixedRequests : List Call :=
  [.beginScript, .setTool "t", .addSource "s", .declare .choice "c", .addLabel .choice "c" "a",
    .select "c" "b", .select "c" "ALL", .addLabel .choice "c" "b", .declare .choice "d",
    .addLabel .choice "d" "x", .select "d" "x", .select "c" "b", .select "c" "a"].map (·, Pos.none)

/-- A request for all labels means those declared by then, one for an unknown label is refused, and
what is asked for again counts once. The directive takes the place of the select statement for its
choice. -/
theorem resolved_of_mixedRequests :
    ∃ s, (after { directives := [⟨"d", "all"⟩] } {} mixedRequests).step
        { directives := [⟨"d", "all"⟩] } .endScript .none = (s, none) ∧
      s.selections = [⟨"c", "a"⟩, ⟨"c", "b"⟩, ⟨"d", "x"⟩] := by
  have hEnd : ∃ s, (after { directives := [⟨"d", "all"⟩] } {} mixedRequests).step
      { directives := [⟨"d", "all"⟩] } .endScript .none = (s, none) := ⟨_, rfl⟩
  obtain ⟨s, hEnd⟩ := hEnd
  have hAsked : asked [⟨"d", "all"⟩]
      (accepted { directives := [⟨"d", "all"⟩] } {} mixedRequests) =
        [⟨"c", "a"⟩, ⟨"c", "b"⟩, ⟨"c", "a"⟩, ⟨"d", "x"⟩] := rfl
  have hRequested := (resolved_of_endScript hEnd).requested
  rw [hAsked] at hRequested
  exact ⟨s, hEnd, hRequested (by decide)⟩

end State

end Runsheet
