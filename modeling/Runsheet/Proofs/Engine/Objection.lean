import Runsheet.Proofs.Engine.Calls
import Runsheet.Proofs.Suggestion

/-! What the engine objects to when it refuses an event before the end of the script: always at the
place of the event, and if a name is not known, with a suggestion from the names that were looked
through. -/
namespace Runsheet

/-- The kinds of diagnostics about a name that is none of those in question. -/
def DiagnosticKind.IsOfName (kind : DiagnosticKind) : Prop :=
  kind = .unknownName ∨ kind = .unknownLabel ∨ kind = .labelNotInChoice ∨
    kind = .unknownChoiceInSelect ∨ kind = .unknownLabelInSelect

instance : DecidablePred DiagnosticKind.IsOfName := fun _ => inferInstanceAs (Decidable (_ ∨ _))

def Event.nameFor (kind : DiagnosticKind) : Event → Text
  | .setDefault _ _ label => label
  | .beginCase subject => subject
  | .addAlternativeLabel label => label
  | .select choice label => if kind = .unknownChoiceInSelect then choice else label
  | _ => []

namespace State

/-- The names that are in question where an event can fail for a name: both sorts of axes for a case
statement, the labels of an axis for its default, those of the subject for an alternative, and for a
select the choices or the labels of the choice. -/
def known (s : State) (kind : DiagnosticKind) : Event → List Text
  | .setDefault sort name _ => (((s.registry sort).get? name).map Axis.labels).getD []
  | .beginCase _ => s.choices.names ++ s.inputs.names
  | .addAlternativeLabel _ => (s.cases.head?.map fun c => (s.subjectOf c).labels).getD []
  | .select choice _ =>
    if kind = .unknownChoiceInSelect then s.choices.names
    else ((s.choices.get? choice).map Axis.labels).getD []
  | _ => []

/-- An objection to an event. If it is about a name, that name is rejected, being none of those in
question. -/
structure Objection (s : State) (e : Event) (pos : Pos) (d : Diagnostic) : Prop where
  pos_eq : d.pos = pos
  rejects : d.kind.IsOfName → d.Rejects d.kind pos (e.nameFor d.kind) (s.known d.kind e)
  not_mem : d.kind.IsOfName → e.nameFor d.kind ∉ s.known d.kind e

variable {config : Config} {s s' : State} {e : Event} {pos : Pos} {d : Diagnostic}
  {kind : DiagnosticKind}

/-- A refusal about a name is an objection to the event when it rejects the very name that is in
question there, among the names that are known. -/
theorem Objection.of_rejects {name : Text} {names : List Text} (h : d.Rejects kind pos name names)
    (hNone : name ∉ names) (hName : e.nameFor kind = name) (hNames : s.known kind e = names) :
    Objection s e pos d := by
  have hKind := h.kind_eq
  subst hKind hName hNames
  exact ⟨h.pos_eq, fun _ => h, fun _ => hNone⟩

/-- Nothing is in question for the other kinds. -/
theorem Objection.of_error (h : d.IsErrorAt kind pos) (hOther : ¬ kind.IsOfName) :
    Objection s e pos d :=
  ⟨h.pos_eq, fun hName => absurd (h.kind_eq ▸ hName) hOther,
    fun hName => absurd (h.kind_eq ▸ hName) hOther⟩

/-- A label without a block is not declared either, in an engine that calls have brought about. -/
theorem Sound.objection_of_select {choice label : Text} (hSound : s.Sound)
    (h : s.toResolver.Refuses choice label pos d) : Objection s (.select choice label) pos d := by
  rcases h with ⟨hNone, hRejects⟩ | ⟨a, ha, hLabel, hRejects⟩
  · exact .of_rejects hRejects hNone rfl rfl
  · have hMissing := ((hSound.resolver.choices.of_get? ha).2.2.hasLabel_eq_false_iff label).mp hLabel
    exact .of_rejects hRejects hMissing rfl (by rw [known, ha]; rfl)

/-- Every diagnostic of a refused event, up to the end of the script, is an objection to it. -/
theorem objection_of_take (hSound : s.Sound) (hEvent : e ≠ .endScript)
    (h : s.take config e pos = (s', some (.diagnostic d))) : Objection s e pos d := by
  cases e with
  | beginScript => cases (beginScript_eq_some h).2.1.choose_spec
  | setTool name =>
      obtain ⟨-, _, hFailure, hError⟩ := setTool_eq_some h
      cases hFailure
      exact .of_error hError (by decide)
  | addSource name =>
      obtain ⟨diary, hSource⟩ := addSource_eq s name pos
      cases hSource.symm.trans h
  | addSwitch switch => cases (addSwitch_eq_some h).2.1.choose_spec
  | declare kind name =>
      obtain ⟨-, _, hFailure, hError⟩ := declare_eq_some h
      cases hFailure
      exact .of_error hError (by decide)
  | addLabel kind name label =>
      obtain ⟨-, ⟨⟨v, hFailure⟩, -⟩ | ⟨_, hFailure, hError | hError⟩⟩ := addLabel_eq_some h
      · cases hFailure
      · cases hFailure
        exact .of_error hError (by decide)
      · cases hFailure
        exact .of_error hError (by decide)
  | setDefault kind name label =>
      obtain ⟨-, ⟨⟨v, hFailure⟩, -⟩ | ⟨a, _, ha, hLabel, hFailure, hRejects⟩⟩ := setDefault_eq_some h
      · cases hFailure
      · cases hFailure
        have hMissing := (((hSound.registry kind).of_get? ha).2.2.hasLabel_eq_false_iff label).mp hLabel
        exact .of_rejects hRejects hMissing rfl (by rw [known, ha]; rfl)
  | beginCase subject =>
      obtain ⟨-, _, hFailure, hNone, hRejects⟩ := beginCase_eq_some h
      cases hFailure
      exact .of_rejects hRejects hNone rfl rfl
  | beginAlternative => cases (beginAlternative_eq_some h).2.1.choose_spec
  | addAlternativeLabel label =>
      obtain ⟨-, ⟨⟨v, hFailure⟩, -⟩ | ⟨c, cs, _, hCases, hFailure, hRefusal⟩⟩ :=
        addAlternativeLabel_eq_some h
      · cases hFailure
      · cases hFailure
        rcases hRefusal with ⟨hLabel, hRejects⟩ | hError
        · have hSubject := hSound.sound_subjectOf (hCases ▸ List.mem_cons_self)
          exact .of_rejects hRejects ((hSubject.hasLabel_eq_false_iff label).mp hLabel) rfl
            (by rw [known, hCases]; rfl)
        · exact .of_error hError (by decide)
  | endAlternative =>
      -- Whatever goes wrong at the end of an alternative breaks a contract.
      rcases s.endAlternative_cases with ⟨v, hEnd, -⟩ | ⟨c, cs, -, -, -, hRest⟩
      · cases hEnd.symm.trans h
      · rcases hRest with ⟨-, v, hEnd⟩ | ⟨b, b', bs, diary, -, hEnd⟩
        · cases hEnd.symm.trans h
        · have hFailure := congrArg Prod.snd (hEnd.symm.trans h)
          obtain ⟨v, -, hViolation⟩ := Option.map_eq_some_iff.mp hFailure
          cases hViolation
  | endCase =>
      rcases endCase_eq_some h with ⟨-, ⟨v, hFailure⟩, -⟩ | ⟨c, cs, -, -, -, -, hFailure, -⟩
      · cases hFailure
      · cases hFailure
        exact .of_error (CaseCheck.isErrorAt_incomplete c _ pos) (by decide)
  | select choice label =>
      obtain ⟨-, _, hFailure, hRefuses⟩ := select_eq_some h
      cases hFailure
      exact hSound.objection_of_select hRefuses
  | endScript => exact absurd rfl hEvent

end State

end Runsheet
