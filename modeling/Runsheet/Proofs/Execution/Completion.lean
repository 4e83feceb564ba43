import Runsheet.Proofs.Execution.Results

/-! A run comes to its end. Every move takes it further towards a bound that the plan sets, a run that
is not done can always move, and what a run tells when it is done is the account of its plan. -/
namespace Runsheet

/-- How far the run is with the command whose turn it is. -/
def Phase.progress : Phase → Nat
  | between => 0
  | ready => 1
  | running false => 2
  | running true | ended false _ => 3
  | ended true _ => 4

/-- Of the five stages of one command, the last counts four. Settling it takes the run to the next
command. -/
theorem Phase.progress_le (phase : Phase) : phase.progress ≤ 4 := by
  rcases phase with _ | _ | ⟨_ | _⟩ | ⟨_ | _, _⟩ <;> simp [progress]

namespace Execution

variable {e e' : Execution} {c : Chronicle} {s : Step}

/-- How far the run is: a command takes five moves at most. -/
def progress (e : Execution) : Nat := 5 * e.settledCount + e.phase.progress

/-- What comes from outside takes the run no further, and every other step does. -/
theorem Moves.progress_lt (hMove : Moves e s e') :
    e.progress + (if s.isArrival then 0 else 1) ≤ e'.progress := by
  cases hMove with
  | signal | cancel => exact Nat.le_refl _
  | dropPending hPhase | launch hPhase => simp [progress, hPhase, afterDrop, afterLaunch,
      Phase.progress, Step.isArrival]
  | watchSignal _ hPhase | watchCancel _ hPhase =>
      rcases phase_of_canceledPhase? hPhase with ⟨o, hOld, rfl⟩ | ⟨hOld, rfl⟩ <;>
        simp [progress, hOld, Phase.progress, Step.isArrival]
  | @finish canceled o hPhase =>
      cases canceled <;> simp [progress, hPhase, Phase.progress, Step.isArrival]
  | settle hPhase hNext =>
      have hLast := e.phase.progress_le
      change 5 * e.settledCount + e.phase.progress + 1 ≤ 5 * (e.settledCount + 1)
      omega

/-- No step, possible or not, takes a run backwards. By induction on the steps. -/
theorem progress_le_steps (e : Execution) (ss : List Step) : e.progress ≤ (e.steps ss).progress :=
  observed_induction (motive := fun e' _ => e.progress ≤ e'.progress) ss (Nat.le_refl _)
    fun _ _ _ _ h hMove => Nat.le_trans h (Nat.le_of_add_right_le hMove.progress_lt)

/-- A run that has not begun is nowhere, so it has made no more moves than it is far. -/
theorem moves_le_progress (e : Execution) (ss : List Step) :
    (e.chronicle ss).moves ≤ (e.steps ss).progress :=
  observed_induction (motive := fun e c => c.moves ≤ e.progress) ss (Nat.zero_le _)
    fun _ _ _ _ h hMove => Nat.le_trans (Nat.add_le_add_right h _) hMove.progress_lt

namespace Tallied

/-- Five stages for every command bound the progress, whatever arrives from outside. -/
theorem progress_le (h : Tallied e c) : e.progress ≤ 5 * e.commands.length := by
  by_cases hPhase : e.phase = .between
  · rw [progress, hPhase]
    exact Nat.mul_le_mul_left 5 h.settled_le
  · have hSettled := h.settled_lt hPhase
    have hLast := e.phase.progress_le
    rw [progress]
    omega

/-- The run is done when it is as far as it can be. -/
theorem isDone_iff (h : Tallied e c) : e.isDone = true ↔ 5 * e.commands.length ≤ e.progress := by
  rw [isDone, Bool.and_eq_true_iff, beq_iff_eq, beq_iff_eq]
  constructor
  · rintro ⟨hPhase, hSettled⟩
    rw [progress, hSettled]
    exact Nat.le_add_right _ _
  · intro hFar
    have hBetween : e.phase = .between := by
      by_contra hPhase
      have hSettled := h.settled_lt hPhase
      have hLast := e.phase.progress_le
      rw [progress] at hFar
      omega
    rw [progress, hBetween] at hFar
    exact ⟨hBetween, Nat.le_antisymm h.settled_le (Nat.le_of_mul_le_mul_left hFar (by decide))⟩

/-- A run that is not done can move, whatever the launcher makes of its commands. -/
theorem can_move (h : Tallied e c) (hDone : e.isDone = false) (o : Outcome) :
    ∃ s ∈ [.dropPending, .launch, .finish o, .settle], (e.step? s).isSome = true := by
  have hNext (hSettled : e.settledCount < e.commands.length) : e.current?.isSome = true := by
    simp [current?, hSettled]
  cases hPhase : e.phase with
  | between =>
      have hSettled : e.settledCount ≠ e.commands.length := by
        simpa [isDone, hPhase] using hDone
      have hNext := hNext (Nat.lt_of_le_of_ne h.settled_le hSettled)
      exact ⟨.dropPending, by simp, by simp [step?, hPhase, hNext]⟩
  | ready =>
      have hNext := hNext (h.settled_lt (by simp [hPhase]))
      exact ⟨.launch, by simp, by simp [step?, hPhase, hNext]⟩
  | running canceled => exact ⟨.finish o, by simp, by simp [step?, hPhase]⟩
  | ended canceled own =>
      have hNext := hNext (h.settled_lt (by simp [hPhase]))
      exact ⟨.settle, by simp, by simp [step?, hPhase, hNext]⟩

end Tallied

theorem steps_append (e : Execution) (ss ts : List Step) :
    e.steps (ss ++ ts) = (e.steps ss).steps ts :=
  List.foldl_append

/-- Once its turn has come, a command is launched. -/
theorem progress_steps_launch (hNext : e.settledCount < e.commands.length) :
    5 * e.settledCount + 2 ≤ (e.steps [.dropPending, .launch]).progress := by
  rcases hPhase : e.phase with _ | _ | ⟨_ | _⟩ | ⟨_ | _, _⟩ <;>
    simp [steps, step?, hPhase, current?, hNext, afterDrop, afterLaunch, progress, Phase.progress]

/-- Once it was launched, a command ends and its result is settled. -/
theorem progress_steps_settle (hLaunched : 2 ≤ e.phase.progress)
    (hNext : e.settledCount < e.commands.length) (o : Outcome) :
    5 * (e.settledCount + 1) ≤ (e.steps [.finish o, .settle]).progress := by
  rcases hPhase : e.phase with _ | _ | canceled | ⟨canceled, own⟩
  · simp [hPhase, Phase.progress] at hLaunched
  · simp [hPhase, Phase.progress] at hLaunched
  all_goals
    simp [steps, step?, hPhase, current?, hNext, afterSettle, progress, Phase.progress]

/-- Performing a command settles it, whatever happens while it runs. -/
theorem progress_perform (hNext : e.settledCount < e.commands.length) (x : Conduct) :
    5 * (e.settledCount + 1) ≤ (e.perform x).progress := by
  rw [perform]
  generalize hLater : (e.steps [.dropPending, .launch]).steps x.meanwhile = later
  have hFar : 5 * e.settledCount + 2 ≤ later.progress :=
    hLater ▸ Nat.le_trans (progress_steps_launch hNext) (progress_le_steps _ _)
  have hCommands : later.commands = e.commands := by
    rw [← hLater, commands_steps, commands_steps]
  have hLast := later.phase.progress_le
  rw [progress] at hFar
  by_cases hSettled : later.settledCount = e.settledCount
  · rw [← hSettled]
    exact progress_steps_settle (by omega) (by rwa [hSettled, hCommands]) _
  · -- The command was settled while it ran, and the run is at a later one already.
    refine Nat.le_trans ?_ (progress_le_steps later _)
    rw [progress]
    omega

/-- Conducting one command is a sequence of steps like any other, so what holds of all steps holds
of it. -/
theorem perform_eq_steps (e : Execution) (x : Conduct) : ∃ ss, e.perform x = e.steps ss := by
  let later := (e.steps [.dropPending, .launch]).steps x.meanwhile
  refine ⟨([.dropPending, .launch] ++ x.meanwhile) ++
    [.finish (x.outcome later.isCommandCanceled), .settle], ?_⟩
  rw [steps_append, steps_append, perform]

/-- Performing some commands settles as many, or all that there are. -/
theorem foldl_perform (e : Execution) (xs : List Conduct) :
    (∃ ss, xs.foldl perform e = e.steps ss) ∧
      (e.commands.length ≤ e.settledCount + xs.length →
        5 * e.commands.length ≤ (xs.foldl perform e).progress) := by
  induction xs generalizing e with
  | nil =>
      refine ⟨⟨[], rfl⟩, fun hAll => ?_⟩
      rw [List.foldl_nil, progress]
      exact Nat.le_add_right_of_le (Nat.mul_le_mul_left 5 hAll)
  | cons x xs ih =>
      obtain ⟨ss, hFirst⟩ := e.perform_eq_steps x
      obtain ⟨⟨ts, hRest⟩, hFar⟩ := ih (e.perform x)
      have hSteps : (x :: xs).foldl perform e = e.steps (ss ++ ts) := by
        rw [List.foldl_cons, hRest, hFirst, steps_append]
      refine ⟨⟨ss ++ ts, hSteps⟩, fun hAll => ?_⟩
      rw [hFirst, commands_steps, ← hFirst] at hFar
      rcases Nat.lt_or_ge e.settledCount e.commands.length with hNext | hOver
      · refine hFar ?_
        have hSettled := progress_perform hNext x
        have hLast := (e.perform x).phase.progress_le
        rw [progress] at hSettled
        rw [List.length_cons] at hAll
        omega
      · rw [hSteps]
        refine Nat.le_trans ?_ (progress_le_steps e _)
        rw [progress]
        omega

/-- Performing all commands is a run to its end. -/
theorem performAll_eq_steps (e : Execution) (xs : List Conduct) :
    ∃ ss, e.performAll xs = e.steps ss ∧ 5 * e.commands.length ≤ (e.performAll xs).progress := by
  induction xs generalizing e with
  | nil =>
      obtain ⟨⟨ss, hSteps⟩, hFar⟩ := e.foldl_perform
        (List.replicate (e.commands.length - e.settledCount) ⟨[], fun _ => ⟨0, none⟩⟩)
      refine ⟨ss, hSteps, hFar ?_⟩
      rw [List.length_replicate]
      omega
  | cons x xs ih =>
      obtain ⟨ss, hFirst⟩ := e.perform_eq_steps x
      obtain ⟨ts, hRest, hFar⟩ := ih (e.perform x)
      refine ⟨ss ++ ts, ?_, ?_⟩
      · rw [performAll, hRest, hFirst, steps_append]
      · rwa [hFirst, commands_steps, ← hFirst] at hFar

/-- Failures are told in the order of the commands. -/
theorem increasing_failures (commands : List Command) (n : Nat) :
    (((List.range n).filterMap (c.failure? commands)).map FailedCommand.index).Pairwise (· < ·) := by
  rw [List.map_filterMap, List.pairwise_filterMap]
  refine List.pairwise_lt_range.imp fun hLess _ hLeft _ hRight => ?_
  obtain ⟨f, hf, rfl⟩ := Option.map_eq_some_iff.mp hLeft
  obtain ⟨g, hg, rfl⟩ := Option.map_eq_some_iff.mp hRight
  rwa [Chronicle.index_of_failure? hf, Chronicle.index_of_failure? hg]

/-- What a run tells of its plan when it is done. -/
structure Complete (p : Plan) (e : Execution) (c : Chronicle) : Prop where
  /-- Each command was launched once, in the order of the plan. -/
  launched : e.launched = p.toList
  settled : e.settledCount = p.size
  /-- The launcher gave one outcome for each command. -/
  ended : c.endings.length = p.size
  increasing : (e.failures.map FailedCommand.index).Pairwise (· < ·)
  /-- The failures are those of the commands that did not succeed on their own. -/
  failures : ∀ f, f ∈ e.failures ↔ ∃ command own, p.toList[f.index]? = some command ∧
    c.endings[f.index]? = some own ∧ (own.code ≠ 0 ∨ own.error ≠ none) ∧ f.line = command.line ∧
    f.outcome = if c.killed f.index then Outcome.killed else own
  exitCode : e.exitCode = if e.failures = [] then 0 else 1

/-- The account of a run that is done. -/
theorem Tallied.complete {p : Plan} (h : Tallied e c) (hCommands : e.commands = p.toList)
    (hDone : e.isDone = true) : Complete p e c := by
  rw [isDone, Bool.and_eq_true_iff, beq_iff_eq, beq_iff_eq] at hDone
  obtain ⟨hPhase, hSettled⟩ := hDone
  have hSize : e.settledCount = p.size := by rw [hSettled, hCommands, Plan.size]
  obtain ⟨hLaunched, hEndings⟩ := h.counts hPhase
  have hFailures := h.failures
  rw [hCommands] at hFailures
  refine ⟨?_, hSize, hEndings.trans hSize, ?_, fun f => ?_, ?_⟩
  · rw [hLaunched, hSettled, hCommands]
    exact List.take_length
  · rw [hFailures]
    exact increasing_failures _ _
  · rw [hFailures, List.mem_filterMap]
    constructor
    · rintro ⟨index, -, hFailure⟩
      obtain ⟨command, own, hCommand, hOwn, hFailed, rfl, hLine, hOutcome⟩ :=
        Chronicle.failure?_eq_some_iff.mp hFailure
      exact ⟨command, own, hCommand, hOwn, hFailed, hLine, hOutcome⟩
    · rintro ⟨command, own, hCommand, hOwn, hFailed, hLine, hOutcome⟩
      have hIndex : f.index < e.settledCount := by
        rw [hSettled, hCommands]
        exact (List.getElem?_eq_some_iff.mp hCommand).1
      refine ⟨f.index, List.mem_range.mpr hIndex, ?_⟩
      exact Chronicle.failure?_eq_some_iff.mpr
        ⟨command, own, hCommand, hOwn, hFailed, rfl, hLine, hOutcome⟩
  · rw [exitCode, succeeded]
    simp only [List.isEmpty_iff]

/-- Every plan runs to its end, whatever its commands do and whenever signals and the cancellation
arrive. -/
theorem runs_to_completion (p : Plan) :
    (∀ ss xs, (((start p).steps ss).performAll xs).isDone = true ∧
      ∃ ts, ((start p).steps ss).performAll xs = (start p).steps ts) ∧
    ∀ ss, ((start p).chronicle ss).moves ≤ 5 * p.size ∧
      (((start p).steps ss).isDone = false →
        ∀ o, ∃ s ∈ [.dropPending, .launch, .finish o, .settle],
          (((start p).steps ss).step? s).isSome = true) ∧
      (((start p).steps ss).isDone = true →
        Complete p ((start p).steps ss) ((start p).chronicle ss)) := by
  refine ⟨fun ss xs => ?_, fun ss => ?_⟩
  · obtain ⟨ts, hSteps, hFar⟩ := ((start p).steps ss).performAll_eq_steps xs
    rw [← steps_append] at hSteps
    refine ⟨?_, ss ++ ts, hSteps⟩
    rw [commands_steps] at hFar
    rw [hSteps] at hFar ⊢
    refine (tallied p (ss ++ ts)).isDone_iff.mpr ?_
    rwa [commands_steps]
  · have hTally := tallied p ss
    refine ⟨?_, hTally.can_move, fun hDone => hTally.complete (commands_steps _ _) hDone⟩
    refine Nat.le_trans (moves_le_progress _ ss) ?_
    have hFar := hTally.progress_le
    rwa [commands_steps] at hFar

end Execution

end Runsheet
