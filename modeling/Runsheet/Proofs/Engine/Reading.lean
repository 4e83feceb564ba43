import Runsheet.Engine
import Runsheet.Proofs.Engine.Contract
import Runsheet.Proofs.Engine.Soundness
import Runsheet.Proofs.Script.Grammar
import Runsheet.Proofs.Script.Protocol
import Runsheet.Proofs.Token.Scan

/-! A reader meets the contract of the engine. The nesting that the reader is in tells the open case
statements and the number of open blocks, so that every event which may come at a stage is admitted
by an engine that agrees with it. -/
namespace Runsheet

def Place.depth : Place → Nat
  | statements => 1
  | alternatives _ outer => outer.depth
  | elements _ outer => outer.depth + 1

/-- The open case statements are those of a place: outside of an alternative, or in one with labels. -/
def Place.Matches : Place → List CaseCheck → Prop
  | statements, cs => cs = []
  | alternatives _ outer, cs => ∃ c rest, cs = c :: rest ∧ c.closed = false ∧
      c.inAlternative = false ∧ outer.Matches rest
  | elements _ outer, cs => ∃ c rest, cs = c :: rest ∧ c.closed = false ∧
      c.inAlternative = true ∧ c.current ≠ [] ∧ outer.Matches rest

/-- An engine in the middle of a script, at a place. -/
structure Place.Agrees (place : Place) (s : State) : Prop where
  cases : place.Matches s.cases
  depth : s.scopes.depth = place.depth
  running : s.done = false

/-- Agreement is about open case statements, open blocks and whether the script has ended, and about
nothing else in the engine. -/
theorem Place.Agrees.congr {place : Place} {s s' : State} (h : place.Agrees s)
    (hCases : s'.cases = s.cases) (hDepth : s'.scopes.depth = s.scopes.depth)
    (hDone : s'.done = s.done) : place.Agrees s' where
  cases := hCases ▸ h.cases
  depth := hDepth.trans h.depth
  running := hDone.trans h.running

namespace Stage

/-- An engine that has been told a script up to a stage. -/
def Agrees : Stage → State → Prop
  | unbegun, s => s.scopes.depth = 0 ∧ s.cases = [] ∧ s.done = false
  | reading place, s => place.Agrees s
  | declaring kind name, s => Place.statements.Agrees s ∧ name ∈ (s.registry kind).names
  | labelling _ outer, s => ∃ c rest, s.cases = c :: rest ∧ c.closed = false ∧
      c.inAlternative = true ∧ outer.Matches rest ∧ s.scopes.depth = outer.depth + 1 ∧
      s.done = false
  | ended, _ => True

theorem agrees_empty : unbegun.Agrees {} := ⟨rfl, rfl, rfl⟩

variable {config : Config} {s : State} {e : Event} {pos : Pos} {place outer : Place} {subject : Text}

/-- The event is admitted, and taking it leads to a state that agrees with a stage. -/
def Safe (config : Config) (s : State) (e : Event) (st : Stage) : Prop :=
  s.Admits e ∧ ∀ pos s', s.take config e pos = (s', none) → st.Agrees s'

/-- The beginning of a script is due once, when no block is open, and opens the main block. -/
theorem safe_beginScript (h : unbegun.Agrees s) :
    Safe config s .beginScript (reading .statements) := by
  obtain ⟨hDepth, hCases, hDone⟩ := h
  refine ⟨hDepth, fun pos s' hTake => ?_⟩
  obtain ⟨_, diary, rfl⟩ := State.beginScript_eq_none hTake
  exact ⟨hCases, rfl, hDone⟩

/-- A switch can be added wherever some block is open, which is everywhere after the beginning of
the script. -/
theorem safe_addSwitch {switch : Switch} (h : place.Agrees s) (hDepth : 0 < place.depth) :
    Safe config s (.addSwitch switch) (reading place) := by
  have hAdmits : 0 < s.scopes.depth := h.depth ▸ hDepth
  refine ⟨hAdmits, fun pos s' hTake => ?_⟩
  obtain ⟨b, bs, diary, hBlocks, rfl⟩ :=
    State.addSwitch_eq_none hTake
  exact h.congr rfl (by simp [Scopes.depth, hBlocks]) rfl

/-- A declaration stands among statements only, and from then on its labels are added to an axis
that has been declared. -/
theorem safe_declare {kind : AxisKind} {name : Text} (h : Place.statements.Agrees s) :
    Safe config s (.declare kind name) (declaring kind name) := by
  refine ⟨trivial, fun pos s' hTake => ?_⟩
  obtain ⟨_, _, diary, rfl⟩ := State.declare_eq_none hTake
  refine ⟨h.congr (by simp) (by simp) (by simp), ?_⟩
  cases kind <;> simp [State.registry, State.setRegistry]

/-- A case statement may begin among statements and inside of an alternative; the reading goes on
with its alternatives. -/
theorem safe_beginCase {inner : Text} (h : place.Agrees s) :
    Safe config s (.beginCase inner) (reading (.alternatives inner place)) := by
  refine ⟨trivial, fun pos s' hTake => ?_⟩
  obtain ⟨a, diary, _, rfl⟩ := State.beginCase_eq_none hTake
  refine ⟨⟨_, s.cases, rfl, rfl, rfl, h.cases⟩, ?_, ?_⟩
  · simpa [Place.depth] using h.depth
  · simpa using h.running

/-- The events that begin a statement. -/
theorem safe_amongStatements {st : Stage} (h : Place.statements.Agrees s)
    (hNext : amongStatements e = some st) : Safe config s e st := by
  cases e with
  | setTool name =>
      cases hNext
      refine ⟨trivial, fun pos s' hTake => ?_⟩
      obtain ⟨_, diary, rfl⟩ := State.setTool_eq_none hTake
      exact h.congr rfl rfl rfl
  | addSource name =>
      cases hNext
      refine ⟨trivial, fun pos s' hTake => ?_⟩
      obtain ⟨diary, hEq⟩ := State.addSource_eq s name pos
      cases hEq.symm.trans hTake
      exact h.congr rfl rfl rfl
  | addSwitch switch =>
      cases hNext
      exact safe_addSwitch h Nat.one_pos
  | declare kind name =>
      cases hNext
      exact safe_declare h
  | beginCase subject =>
      cases hNext
      exact safe_beginCase h
  | select choice label =>
      cases hNext
      refine ⟨trivial, fun pos s' hTake => ?_⟩
      obtain ⟨r, _, rfl⟩ := State.select_eq_none hTake
      exact h.congr rfl rfl rfl
  | endScript =>
      cases hNext
      exact ⟨⟨h.running, h.depth, h.cases⟩, fun _ _ _ => trivial⟩
  | _ => cases hNext

/-- The labels and the default of an axis that is being declared. -/
theorem safe_declaring {kind : AxisKind} {name : Text} {st : Stage}
    (h : (declaring kind name).Agrees s) (hNext : (declaring kind name).next e = some st) :
    Safe config s e st := by
  obtain ⟨hPlace, hName⟩ := h
  have hMember : ∀ {r : Registry} {diary : Diary}, r.names = (s.registry kind).names →
      name ∈ (State.registry { s.setRegistry kind r with toDiary := diary } kind).names := by
    intro r diary hNames
    cases kind <;> exact hNames ▸ hName
  cases e with
  | addLabel kind' name' label =>
      rw [next] at hNext
      split at hNext
      · rename_i hSame
        obtain ⟨rfl, rfl⟩ := hSame
        cases hNext
        refine ⟨hName, fun pos s' hTake => ?_⟩
        obtain ⟨a, diary, _, _, _, rfl⟩ := State.addLabel_eq_none hTake
        exact ⟨hPlace.congr (by simp) (by simp) (by simp),
          hMember (Registry.names_modify _ _ fun _ => rfl)⟩
      · cases hNext
  | setDefault kind' name' label =>
      rw [next] at hNext
      split at hNext
      · rename_i hSame
        obtain ⟨rfl, rfl⟩ := hSame
        cases hNext
        refine ⟨hName, fun pos s' hTake => ?_⟩
        obtain ⟨a, diary, _, _, rfl⟩ := State.setDefault_eq_none hTake
        exact ⟨hPlace.congr (by simp) (by simp) (by simp),
          hMember (Registry.names_modify _ _ fun _ => rfl)⟩
      · cases hNext
  | _ => exact safe_amongStatements hPlace hNext

/-- An alternative begins where one is expected, so none is open in the innermost statement, and it
gets a block of its own. -/
theorem safe_beginAlternative (h : (Place.alternatives subject outer).Agrees s) :
    Safe config s .beginAlternative (labelling subject outer) := by
  obtain ⟨c, rest, hCases, hClosed, hOpen, hOuter⟩ := h.cases
  refine ⟨⟨c, rest, hCases, hClosed, hOpen⟩, fun pos s' hTake => ?_⟩
  obtain ⟨c', cs, diary, hCases', _, _, rfl⟩ :=
    State.beginAlternative_eq_none hTake
  obtain ⟨rfl, rfl⟩ := List.cons.inj (hCases.symm.trans hCases')
  refine ⟨_, rest, rfl, hClosed, rfl, hOuter, ?_, h.running⟩
  have hDepth : s.scopes.blocks.length = outer.depth := h.depth
  simp [Scopes.depth, Scopes.push, hDepth]

/-- A case statement ends where an alternative is expected, so none is open, and the reading goes
back to what is around the statement. -/
theorem safe_endCase (h : (Place.alternatives subject outer).Agrees s) :
    Safe config s .endCase (reading outer) := by
  obtain ⟨c, rest, hCases, hClosed, hOpen, hOuter⟩ := h.cases
  refine ⟨⟨c, rest, hCases, hClosed, hOpen⟩, fun pos s' hTake => ?_⟩
  obtain ⟨c', cs, diary, hCases', _, _, _, rfl⟩ := State.endCase_eq_none hTake
  obtain ⟨rfl, rfl⟩ := List.cons.inj (hCases.symm.trans hCases')
  exact ⟨hOuter, h.depth, h.running⟩

/-- A label in an open alternative, the first one or a further one. -/
theorem safe_addAlternativeLabel {label : Text} {c : CaseCheck} {rest : List CaseCheck}
    (hCases : s.cases = c :: rest) (hClosed : c.closed = false) (hOpen : c.inAlternative = true)
    (hOuter : outer.Matches rest) (hDepth : s.scopes.depth = outer.depth + 1)
    (hDone : s.done = false) :
    Safe config s (.addAlternativeLabel label) (reading (.elements subject outer)) := by
  refine ⟨⟨c, rest, hCases, hOpen⟩, fun pos s' hTake => ?_⟩
  obtain ⟨c', cs, diary, hCases', _, _, _, rfl⟩ :=
    State.addAlternativeLabel_eq_none hTake
  obtain ⟨rfl, rfl⟩ := List.cons.inj (hCases.symm.trans hCases')
  exact ⟨⟨_, rest, rfl, hClosed, hOpen, by simp, hOuter⟩, hDepth, hDone⟩

/-- An alternative ends: its block is not the main one, and its labels have blocks. -/
theorem safe_endAlternative (hSound : s.Sound) (h : (Place.elements subject outer).Agrees s)
    (hDepth : 0 < outer.depth) :
    Safe config s .endAlternative (reading (.alternatives subject outer)) := by
  obtain ⟨c, rest, hCases, hClosed, hOpen, hLabels, hOuter⟩ := h.cases
  have hBlocks : s.scopes.blocks.length = outer.depth + 1 := h.depth
  constructor
  · have hMem : c ∈ s.cases := hCases ▸ List.mem_cons_self
    obtain ⟨-, hCase⟩ := hSound.subjectOf hMem
    refine ⟨?_, c, rest, hCases, hOpen, hLabels, fun l hl => ?_⟩
    · rw [Scopes.depth, hBlocks]
      omega
    · exact ((hSound.sound_subjectOf hMem).block?_isSome_iff l).mpr
        (hCase.used_mem l (hCase.current_used l hl))
  · intro pos s' hTake
    obtain ⟨c', cs, b, b', bs, diary, hCases', _, _, hScopes, rfl⟩ :=
      State.endAlternative_eq_none hTake
    obtain ⟨rfl, rfl⟩ := List.cons.inj (hCases.symm.trans hCases')
    rw [hScopes] at hBlocks
    refine ⟨⟨_, rest, rfl, hClosed, rfl, hOuter⟩, ?_, by simpa using h.running⟩
    simpa [Scopes.depth, Place.depth] using hBlocks

/-- The main block is open at every place of a script. -/
theorem depth_pos (place : Place) : 0 < place.depth := by
  induction place with
  | statements => exact Nat.one_pos
  | alternatives subject outer ih => exact ih
  | elements subject outer ih => exact Nat.succ_pos _

/-- A trace record only goes into the journal, which the agreement does not look at. -/
theorem Agrees.receive_note {st : Stage} (h : st.Agrees s) (record : LogRecord) :
    st.Agrees (s.receive config (.note record)).1 := by
  cases st with
  | declaring kind name =>
      refine ⟨h.1.congr rfl rfl rfl, ?_⟩
      cases kind <;> exact h.2
  | reading place => exact Place.Agrees.congr h rfl rfl rfl
  | _ => exact h

/-- One event: what may come at a stage is admitted by an engine that agrees with the stage, and
once it is taken they agree again. -/
theorem Agrees.safe {st st' : Stage} (config : Config) (hSound : s.Sound) (h : st.Agrees s)
    (hNext : st.next e = some st') : Safe config s e st' := by
  cases st with
  | unbegun =>
      cases e with
      | beginScript =>
          cases hNext
          exact safe_beginScript h
      | _ => cases hNext
  | declaring kind name => exact safe_declaring h hNext
  | labelling subject outer =>
      cases e with
      | addAlternativeLabel label =>
          cases hNext
          obtain ⟨c, rest, hCases, hClosed, hOpen, hOuter, hDepth, hDone⟩ := h
          exact safe_addAlternativeLabel hCases hClosed hOpen hOuter hDepth hDone
      | _ => cases hNext
  | ended => cases e <;> cases hNext
  | reading place =>
      cases place with
      | statements => exact safe_amongStatements h hNext
      | alternatives subject outer =>
          cases e with
          | beginAlternative =>
              cases hNext
              exact safe_beginAlternative h
          | endCase =>
              cases hNext
              exact safe_endCase h
          | _ => cases hNext
      | elements subject outer =>
          cases e with
          | addAlternativeLabel label =>
              cases hNext
              obtain ⟨c, rest, hCases, hClosed, hOpen, _, hOuter⟩ := h.cases
              exact safe_addAlternativeLabel hCases hClosed hOpen hOuter h.depth h.running
          | addSwitch switch =>
              cases hNext
              exact safe_addSwitch h (depth_pos _)
          | beginCase inner =>
              cases hNext
              exact safe_beginCase h
          | endAlternative =>
              cases hNext
              exact safe_endAlternative hSound h (depth_pos outer)
          | _ => cases hNext

end Stage

namespace State

variable {config : Config} {s s' : State}

/-- Every event among reports is admitted by the state in which it is handed on. -/
def Honours (config : Config) : State → List Emission → Prop
  | _, [] => True
  | s, .note record :: rest => Honours config (s.receive config (.note record)).1 rest
  | s, .event e pos :: rest =>
    s.Admits e ∧ ∀ s', s.take config e pos = (s', none) → Honours config s' rest

theorem Sound.receive_note (h : s.Sound) (record : LogRecord) :
    (s.receive config (.note record)).1.Sound :=
  h.congr rfl rfl rfl rfl

/-- A run of reports that follow the stages: every event is admitted, and a refusal tells of an
error in the script. -/
theorem honours_of_after (config : Config) {st st' : Stage} {emitted : List Emission} (hSound : s.Sound)
    (hAgrees : st.Agrees s) (hAfter : st.after emitted = some st') :
    Honours config s emitted ∧
      ∀ s' d, handOn (receive config) s emitted = (s', some d) → d.IsUserError := by
  induction emitted generalizing s st with
  | nil =>
      refine ⟨trivial, fun s' d hRun => ?_⟩
      have hNone : (none : Option Diagnostic) = some d := congrArg Prod.snd hRun
      cases hNone
  | cons emission emitted ih =>
      cases emission with
      | note record => exact ih (hSound.receive_note record) (hAgrees.receive_note record) hAfter
      | event e pos =>
          obtain ⟨next, hNext, hRest⟩ := Option.bind_eq_some_iff.mp hAfter
          obtain ⟨hAdmits, hAgrees'⟩ := hAgrees.safe config hSound hNext
          refine ⟨⟨hAdmits, fun t hTake => ?_⟩, fun t d hRun => ?_⟩
          · exact (ih (hSound.take hTake) (hAgrees' pos t hTake) hRest).1
          · rw [handOn, receive, step] at hRun
            cases hTake : s.take config e pos with
            | mk t' failure =>
                rw [hTake] at hRun
                cases failure with
                | none => exact (ih (hSound.take hTake) (hAgrees' pos t' hTake) hRest).2 t d hRun
                | some f =>
                    obtain ⟨d', rfl, hError⟩ := take_some hSound hAdmits hTake
                    cases hRun
                    exact hError

end State

/-- A script that is run by a new engine keeps to the engine's contract from its first event to its
last one. It comes to its end, or it is not a script, or the engine refuses it for an error in it. -/
theorem runScript_keeps_contract (config : Config) (source : Text) :
    State.Honours config {} (Parse.ofSource source).emitted ∧
      ((runScript config {} source).2 = none ∨
        (∃ e, (runScript config {} source).2 = some (.unreadable (.syntaxError e))) ∨
        ∃ d, (runScript config {} source).2 = some (.refused d) ∧ d.IsUserError) := by
  obtain ⟨st, hAfter⟩ := Parse.after_ofTokens (.ofSource source)
  obtain ⟨hHonours, hError⟩ :=
    State.honours_of_after config State.sound_empty Stage.agrees_empty hAfter
  refine ⟨hHonours, ?_⟩
  rw [runScript, Parse.drive_eq]
  cases hRun : handOn (State.receive config) {} (Parse.ofTokens (.ofSource source)).emitted with
  | mk s refusal =>
      cases refusal with
      | some d => exact Or.inr (Or.inr ⟨d, rfl, hError s d hRun⟩)
      | none =>
          have hEnd := Parse.fromPlace_failure (Tokens.kind_eof source) .statements
            (Tokens.ofSource source).body
          rw [← Parse.failure_ofTokens] at hEnd
          rcases hEnd with hNone | ⟨e, hSyntax⟩
          · exact Or.inl (congrArg (Option.map Stop.unreadable) hNone)
          · exact Or.inr (Or.inl ⟨e, congrArg (Option.map Stop.unreadable) hSyntax⟩)

end Runsheet
