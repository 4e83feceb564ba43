import Mathlib.Data.List.Perm.Subperm
import Runsheet.Proofs.Execution.Results

/-! What the interrupts of a run do to its commands. Each interrupt kills at most one command, one that
was dropped kills none any more, and a kill shows in the result of its command only. -/
namespace Runsheet

namespace Execution

variable {e : Execution} {c : Chronicle}

/-- How a settled command ended, as the run tells it: by its failure, and as a success without one. -/
def resultOf (e : Execution) (index : Nat) : Outcome :=
  ((e.failures.find? (·.index == index)).map FailedCommand.outcome).getD ⟨0, none⟩

/-- Every signal arrives, whatever the run is doing. -/
theorem arrived_chronicle (e : Execution) (ss : List Step) :
    (e.chronicle ss).arrived = ss.count .signal := by
  induction ss using List.reverseRecOn with
  | nil => rfl
  | append_singleton ss s ih =>
      rw [List.count_append, ← ih, chronicle, observed_append, observe]
      cases s with
      | signal => rfl
      | cancel | dropPending | launch | watchSignal | watchCancel | finish | settle =>
          split <;> rfl

/-- The run is cancelled once its cancellation came. -/
theorem canceled_steps (e : Execution) (ss : List Step) :
    (e.steps ss).canceled = true ↔ e.canceled = true ∨ .cancel ∈ ss := by
  induction ss using List.reverseRecOn with
  | nil => simp [steps]
  | append_singleton ss s ih =>
      have hLast : e.steps (ss ++ [s]) = ((e.steps ss).step? s).getD (e.steps ss) := by
        simp [steps]
      rw [hLast, List.mem_append, ← or_assoc, ← ih]
      cases hMove : (e.steps ss).step? s with
      | none =>
          have hOther : Step.cancel ∉ [s] := by
            rintro hMem
            obtain rfl := List.mem_singleton.mp hMem
            cases hMove
          simp [hOther]
      | some e' =>
          cases moves_of_step? hMove <;>
            simp [afterDrop, afterLaunch, afterSettle]

/-- Every kill has an interrupt of its own among those that came. -/
theorem Accounted.kills_le (h : Accounted e c) :
    c.kills.length ≤ c.arrived + if e.canceled then 1 else 0 := by
  have hCame : c.kills.map Kill.cause ⊆
      (List.range c.arrived).map .signal ++ if e.canceled then [.cancellation] else [] := by
    intro x hx
    obtain ⟨k, hk, rfl⟩ := List.mem_map.mp hx
    have hSpent := h.spent k hk
    generalize k.cause = x at hSpent
    cases x with
    | signal n =>
        exact List.mem_append_left _ (List.mem_map_of_mem (List.mem_range.mpr hSpent.1))
    | cancellation =>
        rw [h.canceled hSpent]
        exact List.mem_append_right _ List.mem_cons_self
  have hLength := (h.causes_nodup.subperm hCame).length_le
  rw [List.length_map, List.length_append, List.length_map, List.length_range] at hLength
  refine Nat.le_trans hLength (Nat.le_of_eq (congrArg _ ?_))
  split <;> rfl

/-- The failure that is found for a settled command is the one that it should leave. -/
theorem Tallied.find?_failures (h : Tallied e c) {i : Nat} (hi : i < e.settledCount) :
    e.failures.find? (·.index == i) = c.failure? e.commands i := by
  have hOf : ∀ f, c.failure? e.commands i = some f → f ∈ e.failures := fun f hf => by
    rw [h.failures]
    exact List.mem_filterMap.mpr ⟨i, List.mem_range.mpr hi, hf⟩
  cases hFind : e.failures.find? (·.index == i) with
  | none =>
      refine (Option.eq_none_iff_forall_ne_some.mpr fun f hf => ?_).symm
      have hOther := List.find?_eq_none.mp hFind f (hOf f hf)
      simp [Chronicle.index_of_failure? hf] at hOther
  | some f =>
      have hIndex : f.index = i := by simpa using List.find?_some hFind
      have hMem := List.mem_of_find?_eq_some hFind
      rw [h.failures] at hMem
      obtain ⟨j, -, hf⟩ := List.mem_filterMap.mp hMem
      obtain rfl : i = j := hIndex.symm.trans (Chronicle.index_of_failure? hf)
      exact hf.symm

/-- A command that was settled has ended on its own, and its result is the settled one. -/
theorem Tallied.resultOf_eq (h : Tallied e c) {i : Nat} (hi : i < e.settledCount) :
    ∃ own, c.endings[i]? = some own ∧ e.resultOf i = own.settled (c.killed i) := by
  have hEnded : i < c.endings.length := by
    rw [h.endings_length]
    exact Nat.lt_add_right _ hi
  have hCommand : i < e.commands.length := Nat.lt_of_lt_of_le hi h.settled_le
  refine ⟨c.endings[i], List.getElem?_eq_getElem hEnded, ?_⟩
  rw [resultOf, h.find?_failures hi, Chronicle.failure?, List.getElem?_eq_getElem hEnded,
    List.getElem?_eq_getElem hCommand]
  dsimp only
  split
  · rename_i hSuccess
    rw [Outcome.settled, hSuccess, Bool.not_true, Bool.and_false]
    exact (Outcome.isSuccess_iff.mp hSuccess).symm
  · rfl

/-- What the interrupts of a run have done after some of its steps. -/
structure Interrupted (ss : List Step) (e : Execution) (c : Chronicle) : Prop where
  /-- The chronicle knows every interrupt that nobody has taken. -/
  pending : c.queue.length = e.pending
  /-- The chronicle knows whether the current command was killed. -/
  current : c.killed e.settledCount = e.isCommandCanceled
  /-- No command is killed twice. -/
  indices_nodup : (c.kills.map Kill.index).Nodup
  /-- No interrupt kills two commands. -/
  causes_nodup : (c.kills.map Kill.cause).Nodup
  /-- There are no more kills than interrupts. -/
  kills_le : c.kills.length ≤ ss.count .signal + if .cancel ∈ ss then 1 else 0
  /-- The cancellation kills at most one command. -/
  cancellation_le : c.kills.countP (·.cause == .cancellation) ≤ 1
  /-- What was pending before a command kills neither that command nor a later one. -/
  cleared : ∀ d ∈ c.clearances, ∀ k ∈ c.kills, k.cause ∈ d.pending → k.index < d.index
  /-- The outcome of a command is replaced exactly if it was killed and did not succeed. -/
  results : ∀ i < e.settledCount, ∃ own, c.endings[i]? = some own ∧
    e.resultOf i = if c.killed i = true ∧ own ≠ ⟨0, none⟩ then ⟨-1, some .interrupted⟩ else own

/-- Whatever a run does, and whenever signals and the cancellation arrive, each interrupt kills at
most one command. -/
theorem interrupts_kill_once (p : Plan) (ss : List Step) :
    Interrupted ss ((start p).steps ss) ((start p).chronicle ss) := by
  have hAccounts := accounted p ss
  have hTally := tallied p ss
  refine ⟨hAccounts.length_eq, hAccounts.killed_current, hAccounts.indices_nodup,
    hAccounts.causes_nodup, ?_, ?_, hAccounts.cleared_before, fun i hi => ?_⟩
  · have hCanceled : ((start p).steps ss).canceled = true ↔ .cancel ∈ ss :=
      (canceled_steps _ ss).trans (or_iff_right (by simp [start]))
    simpa [arrived_chronicle, hCanceled] using hAccounts.kills_le
  · have hOnce := List.nodup_iff_count_le_one.mp hAccounts.causes_nodup .cancellation
    rwa [List.count, List.countP_map] at hOnce
  · obtain ⟨own, hOwn, hResult⟩ := hTally.resultOf_eq hi
    refine ⟨own, hOwn, hResult.trans ?_⟩
    simp [Outcome.settled, Outcome.killed, ← Outcome.isSuccess_iff]

end Execution

end Runsheet
