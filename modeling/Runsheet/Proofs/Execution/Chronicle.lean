import Mathlib.Data.List.Induction
import Runsheet.Execution

/-! What happened in a run, told beside its state: which signals arrived, which of them nobody has
taken yet, what each watcher acted on, what was dropped between two commands, and how the commands
ended on their own. The chronicle is read off the steps and takes no part in them. -/
namespace Runsheet

/-- What may interrupt a command: a signal, told by its number in the order of arrival, or the
cancellation of the run. -/
inductive Interrupt
  | signal (number : Nat)
  | cancellation
  deriving DecidableEq, Repr

/-- A command whose context was cancelled by its watcher, and the interrupt the watcher acted on. -/
structure Kill where
  index : Nat
  cause : Interrupt
  deriving DecidableEq, Repr

/-- The interrupts that had arrived and were dropped, or were used up already, before a command. -/
structure Clearance where
  index : Nat
  pending : List Interrupt
  deriving DecidableEq, Repr

/-- The chronicle of a run. The signals that nobody has taken stand in the order of arrival. Only
steps that the run takes by itself count as moves; signals and the cancellation come from outside. -/
structure Chronicle where
  arrived : Nat := 0
  queue : List Nat := []
  kills : List Kill := []
  clearances : List Clearance := []
  endings : List Outcome := []
  moves : Nat := 0
  deriving DecidableEq, Repr

def Step.isArrival : Step → Bool
  | signal | cancel => true
  | _ => false

namespace Chronicle

/-- What a step that was taken in a state adds to the chronicle. A watcher that acts on a signal
takes the one that arrived first. -/
def record (c : Chronicle) (e : Execution) : Step → Chronicle
  | .signal => { c with arrived := c.arrived + 1, queue := c.queue ++ [c.arrived] }
  | .dropPending =>
    { c with
      queue := []
      clearances := c.clearances ++ [⟨e.settledCount,
        c.queue.map .signal ++ if e.canceled then [.cancellation] else []⟩] }
  | .watchSignal =>
    { c with
      queue := c.queue.tail
      kills := c.kills ++ (c.queue.head?.map fun n => ⟨e.settledCount, .signal n⟩).toList }
  | .watchCancel => { c with kills := c.kills ++ [⟨e.settledCount, .cancellation⟩] }
  | .finish o => { c with endings := c.endings ++ [o] }
  | .cancel | .launch | .settle => c

def add (c : Chronicle) (e : Execution) (s : Step) : Chronicle :=
  { c.record e s with moves := c.moves + if s.isArrival then 0 else 1 }

/-- Whether the context of a command was cancelled by its watcher. -/
def killed (c : Chronicle) (index : Nat) : Bool := c.kills.any (·.index == index)

end Chronicle

namespace Execution

/-- One step of a run and of its chronicle; a step that cannot happen leaves both as they are. -/
def observe (x : Execution × Chronicle) (s : Step) : Execution × Chronicle :=
  match x.1.step? s with
  | some e => (e, x.2.add x.1 s)
  | none => x

def observed (e : Execution) (ss : List Step) : Execution × Chronicle := ss.foldl observe (e, {})

/-- The chronicle of some steps. -/
def chronicle (e : Execution) (ss : List Step) : Chronicle := (e.observed ss).2

/-- Keeping a chronicle does not change the run. -/
theorem observed_fst (e : Execution) (ss : List Step) : (e.observed ss).1 = e.steps ss := by
  have hFold : ∀ x : Execution × Chronicle, (ss.foldl observe x).1 = x.1.steps ss := by
    induction ss with
    | nil => exact fun _ => rfl
    | cons s ss ih =>
        intro x
        rw [List.foldl_cons, ih, steps, steps, List.foldl_cons, observe]
        cases x.1.step? s <;> rfl
  exact hFold (e, {})

/-- The last of some steps is observed in the state that the others left. -/
theorem observed_append (e : Execution) (ss : List Step) (s : Step) :
    e.observed (ss ++ [s]) = observe (e.observed ss) s := by
  simp [observed]

/-- When a step can happen, and the state after it. -/
inductive Moves (e : Execution) : Step → Execution → Prop
  | signal : Moves e .signal { e with pending := e.pending + 1 }
  | cancel : Moves e .cancel { e with canceled := true }
  | dropPending {command : Command} (hPhase : e.phase = .between)
      (hNext : e.current? = some command) : Moves e .dropPending e.afterDrop
  | launch {command : Command} (hPhase : e.phase = .ready) (hNext : e.current? = some command) :
      Moves e .launch (e.afterLaunch command)
  | watchSignal {phase : Phase} (hPending : 0 < e.pending)
      (hPhase : canceledPhase? e.phase = some phase) :
      Moves e .watchSignal { e with phase, pending := e.pending - 1 }
  | watchCancel {phase : Phase} (hReady : e.cancelReady = true)
      (hPhase : canceledPhase? e.phase = some phase) :
      Moves e .watchCancel { e with phase, cancelUsed := true }
  | finish {canceled : Bool} (o : Outcome) (hPhase : e.phase = .running canceled) :
      Moves e (.finish o) { e with phase := .ended canceled o }
  | settle {canceled : Bool} {o : Outcome} {command : Command} (hPhase : e.phase = .ended canceled o)
      (hNext : e.current? = some command) :
      Moves e .settle (e.afterSettle command (o.settled canceled))

/-- Every step that can happen is one of the moves, each with the state before and after it. -/
theorem moves_of_step? {e e' : Execution} {s : Step} (h : e.step? s = some e') : Moves e s e' := by
  cases s with
  | signal =>
      cases h
      exact .signal
  | cancel =>
      cases h
      exact .cancel
  | dropPending =>
      rw [step?] at h
      split at h
      · rename_i hReady
        obtain ⟨command, hNext⟩ := Option.isSome_iff_exists.mp hReady.2
        cases h
        exact .dropPending hReady.1 hNext
      · cases h
  | launch =>
      rw [step?] at h
      split at h
      · rename_i hPhase
        obtain ⟨command, hNext, rfl⟩ := Option.map_eq_some_iff.mp h
        exact .launch hPhase hNext
      · cases h
  | watchSignal =>
      rw [step?] at h
      split at h
      · rename_i hPending
        obtain ⟨phase, hPhase, rfl⟩ := Option.map_eq_some_iff.mp h
        exact .watchSignal hPending hPhase
      · cases h
  | watchCancel =>
      rw [step?] at h
      split at h
      · rename_i hReady
        obtain ⟨phase, hPhase, rfl⟩ := Option.map_eq_some_iff.mp h
        exact .watchCancel hReady hPhase
      · cases h
  | finish o =>
      rw [step?] at h
      split at h
      · rename_i hPhase
        cases h
        exact .finish o hPhase
      · cases h
  | settle =>
      rw [step?] at h
      split at h
      · rename_i hPhase
        obtain ⟨command, hNext, rfl⟩ := Option.map_eq_some_iff.mp h
        exact .settle hPhase hNext
      · cases h

/-- What every step keeps, of the state and of the chronicle, holds after all steps. -/
theorem observed_induction {motive : Execution → Chronicle → Prop} {e : Execution} (ss : List Step)
    (hStart : motive e {})
    (hStep : ∀ e c s e', motive e c → Moves e s e' → motive e' (c.add e s)) :
    motive (e.steps ss) (e.chronicle ss) := by
  rw [← observed_fst, chronicle]
  induction ss using List.reverseRecOn with
  | nil => exact hStart
  | append_singleton ss s ih =>
      rw [observed_append, observe]
      split
      · rename_i e' hMove
        exact hStep _ _ s e' ih (moves_of_step? hMove)
      · exact ih

end Execution

end Runsheet
