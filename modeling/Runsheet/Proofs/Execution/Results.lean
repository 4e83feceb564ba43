import Runsheet.Proofs.Execution.Accounts

/-! What a run makes of its commands. They are launched in the order of the plan, each ends once on
its own, and the failures are told from these endings and from the kills. -/
namespace Runsheet

namespace Outcome

theorem isSuccess_iff {o : Outcome} : o.isSuccess = true ↔ o = ⟨0, none⟩ := by
  obtain ⟨code, error⟩ := o
  cases error <;> simp [isSuccess]

/-- A command has failed if it gave another code than zero or could not be launched or waited for.
-/
theorem isSuccess_eq_false_iff {o : Outcome} :
    o.isSuccess = false ↔ o.code ≠ 0 ∨ o.error ≠ none := by
  obtain ⟨code, error⟩ := o
  cases error <;> simp [isSuccess]

/-- What counts of an outcome that is no success. -/
theorem settled_of_failed {o : Outcome} (hFailed : o.isSuccess = false) (canceled : Bool) :
    o.settled canceled = if canceled = true then killed else o := by
  rw [settled, hFailed, Bool.not_false, Bool.and_true]

/-- An outcome that counts is a success exactly when the command succeeded on its own. -/
theorem isSuccess_settled (o : Outcome) (canceled : Bool) :
    (o.settled canceled).isSuccess = o.isSuccess := by
  rw [settled]
  split
  · rename_i h
    have hFailed : o.isSuccess = false := by
      simpa using (Bool.and_eq_true_iff.mp h).2
    rw [hFailed]
    rfl
  · rfl

end Outcome

/-- The failure that a command should leave, if it should leave one. -/
def Chronicle.failure? (c : Chronicle) (commands : List Command) (index : Nat) :
    Option FailedCommand :=
  match commands[index]?, c.endings[index]? with
  | some command, some own =>
    if own.isSuccess then none else some ⟨index, command.line, own.settled (c.killed index)⟩
  | _, _ => none

/-- A failure is read off the chronicle: the command under the number, how it ended by itself, and
whether it was killed. -/
theorem Chronicle.failure?_eq_some_iff {c : Chronicle} {commands : List Command} {index : Nat}
    {f : FailedCommand} :
    c.failure? commands index = some f ↔ ∃ command own, commands[index]? = some command ∧
      c.endings[index]? = some own ∧ (own.code ≠ 0 ∨ own.error ≠ none) ∧ f.index = index ∧
      f.line = command.line ∧ f.outcome = if c.killed index then Outcome.killed else own := by
  constructor
  · intro h
    rw [failure?] at h
    split at h
    · rename_i command own hCommand hOwn
      split at h
      · cases h
      · rename_i hSuccess
        have hFailed : own.isSuccess = false := Bool.not_eq_true _ ▸ hSuccess
        cases h
        exact ⟨command, own, hCommand, hOwn, Outcome.isSuccess_eq_false_iff.mp hFailed, rfl, rfl,
          Outcome.settled_of_failed hFailed _⟩
    · cases h
  · rintro ⟨command, own, hCommand, hOwn, hFailed, rfl, hLine, hOutcome⟩
    have hFailed := Outcome.isSuccess_eq_false_iff.mpr hFailed
    simp only [failure?, hCommand, hOwn, hFailed, Bool.false_eq_true, if_false,
      Outcome.settled_of_failed hFailed, ← hLine, ← hOutcome]

/-- A failure that a command should leave carries the index of the command. -/
theorem Chronicle.index_of_failure? {c : Chronicle} {commands : List Command} {index : Nat}
    {f : FailedCommand} (h : c.failure? commands index = some f) : f.index = index := by
  obtain ⟨_, _, -, -, -, hIndex, -⟩ := failure?_eq_some_iff.mp h
  exact hIndex

namespace Phase

/-- Whether the command whose turn it is has been launched, as a number. -/
def launches : Phase → Nat
  | between | ready => 0
  | running _ | ended _ _ => 1

/-- Whether the command whose turn it is has ended, as a number. -/
def endings : Phase → Nat
  | ended _ _ => 1
  | _ => 0

end Phase

namespace Execution

variable {e e' : Execution} {c c' : Chronicle} {s : Step}

/-- The run has come as far as it tells, and tells the failures of all commands before. -/
structure Tallied (e : Execution) (c : Chronicle) : Prop where
  settled_le : e.settledCount ≤ e.commands.length
  settled_lt : e.phase ≠ .between → e.settledCount < e.commands.length
  launched : e.launched = e.commands.take (e.settledCount + e.phase.launches)
  endings_length : c.endings.length = e.settledCount + e.phase.endings
  ended : ∀ canceled o, e.phase = .ended canceled o → c.endings[e.settledCount]? = some o
  failures : e.failures = (List.range e.settledCount).filterMap (c.failure? e.commands)

/-- There is a current command only as long as not all of them are settled. -/
theorem lt_of_current? {command : Command} (h : e.current? = some command) :
    e.settledCount < e.commands.length :=
  (List.getElem?_eq_some_iff.mp h).1

/-- Only a command that runs or has just ended can be cancelled, and only once. -/
theorem phase_of_canceledPhase? {old phase : Phase} (h : canceledPhase? old = some phase) :
    (∃ o, old = .ended false o ∧ phase = .ended true o) ∨
      old = .running false ∧ phase = .running true := by
  match old with
  | .running false =>
      cases h
      exact Or.inr ⟨rfl, rfl⟩
  | .ended false o =>
      cases h
      exact Or.inl ⟨o, rfl, rfl⟩

/-- The failures of the commands before an index depend on what was told of these only. -/
theorem failures_congr (commands : List Command) {n : Nat}
    (hEndings : ∀ i < n, c'.endings[i]? = c.endings[i]?) (hKilled : ∀ i < n, c'.killed i = c.killed i) :
    (List.range n).filterMap (c'.failure? commands) =
      (List.range n).filterMap (c.failure? commands) := by
  refine List.filterMap_congr fun i hi => ?_
  have hi := List.mem_range.mp hi
  rw [Chronicle.failure?, Chronicle.failure?, hEndings i hi, hKilled i hi]

namespace Tallied

theorem start (p : Plan) : Tallied (start p) {} where
  settled_le := Nat.zero_le _
  settled_lt := fun h => absurd rfl h
  launched := rfl
  endings_length := rfl
  ended := nofun
  failures := rfl

/-- How many commands were launched and have ended, in a phase that is known. -/
theorem counts (h : Tallied e c) {phase : Phase} (hPhase : e.phase = phase) :
    e.launched = e.commands.take (e.settledCount + phase.launches) ∧
      c.endings.length = e.settledCount + phase.endings := by
  subst hPhase
  exact ⟨h.launched, h.endings_length⟩

/-- A watcher acts: only the current command is concerned. -/
theorem kill (h : Tallied e c) {phase : Phase} (hPhase : canceledPhase? e.phase = some phase)
    (hSame : e'.commands = e.commands ∧ e'.settledCount = e.settledCount ∧
      e'.launched = e.launched ∧ e'.failures = e.failures) (hPhase' : e'.phase = phase)
    (hEndings : c'.endings = c.endings) (hKilled : ∀ i < e.settledCount, c'.killed i = c.killed i) :
    Tallied e' c' := by
  obtain ⟨hCommands, hSettled, hLaunched, hFailures⟩ := hSame
  have hLaunches : phase.launches = e.phase.launches ∧ phase.endings = e.phase.endings := by
    rcases phase_of_canceledPhase? hPhase with ⟨o, hOld, rfl⟩ | ⟨hOld, rfl⟩ <;> rw [hOld] <;>
      exact ⟨rfl, rfl⟩
  refine ⟨?_, fun _ => ?_, ?_, ?_, ?_, ?_⟩
  · rw [hSettled, hCommands]
    exact h.settled_le
  · rw [hSettled, hCommands]
    refine h.settled_lt fun hBetween => ?_
    rw [hBetween] at hPhase
    cases hPhase
  · rw [hLaunched, hCommands, hSettled, hPhase', hLaunches.1]
    exact h.launched
  · rw [hEndings, hSettled, hPhase', hLaunches.2]
    exact h.endings_length
  · rw [hPhase', hEndings, hSettled]
    rintro canceled o rfl
    rcases phase_of_canceledPhase? hPhase with ⟨o', hOld, hNew⟩ | ⟨_, hNew⟩
    · cases hNew
      exact h.ended _ _ hOld
    · cases hNew
  · rw [hFailures, hCommands, hSettled, h.failures]
    exact (failures_congr _ (fun i _ => by rw [hEndings]) hKilled).symm

/-- A kill of the current command is none of an earlier one. -/
theorem killed_append {index i : Nat} (kills : List Kill) (hKills : ∀ k ∈ kills, k.index = index)
    (hNew : c'.kills = c.kills ++ kills) (hi : i < index) : c'.killed i = c.killed i := by
  have hNone : kills.any (·.index == i) = false := by
    refine List.any_eq_false.mpr fun k hk => ?_
    rw [hKills k hk]
    simpa using Nat.ne_of_gt hi
  rw [Chronicle.killed, hNew, List.any_append, hNone, Bool.or_false, Chronicle.killed]

/-- The result of a command is told when its watcher has stopped. -/
theorem settle (h : Tallied e c) (hKilled : c.killed e.settledCount = e.isCommandCanceled)
    {canceled : Bool} {o : Outcome} {command : Command} (hPhase : e.phase = .ended canceled o)
    (hNext : e.current? = some command) :
    Tallied (e.afterSettle command (o.settled canceled)) (c.add e .settle) := by
  have hCanceled : e.isCommandCanceled = canceled := by rw [isCommandCanceled, hPhase]
  obtain ⟨hLaunched, hEndings⟩ := h.counts hPhase
  refine ⟨lt_of_current? hNext, fun hBetween => absurd rfl hBetween, hLaunched, hEndings,
    fun _ _ hEnded => Phase.noConfusion hEnded, ?_⟩
  have hOwn : c.failure? e.commands e.settledCount =
      if (o.settled canceled).isSuccess then none
      else some ⟨e.settledCount, command.line, o.settled canceled⟩ := by
    have hCommand : e.commands[e.settledCount]? = some command := hNext
    simp only [Chronicle.failure?, hCommand, h.ended _ _ hPhase, hKilled, hCanceled,
      Outcome.isSuccess_settled]
  have hSplit : (List.range (e.settledCount + 1)).filterMap (c.failure? e.commands) =
      e.failures ++ (c.failure? e.commands e.settledCount).toList := by
    rw [List.range_succ, List.filterMap_append, ← h.failures]
    cases hOwn : c.failure? e.commands e.settledCount <;> simp [hOwn]
  change e.failures ++ _ = (List.range (e.settledCount + 1)).filterMap (c.failure? e.commands)
  rw [hSplit, hOwn]
  split <;> rfl

/-- Every step keeps the tally. -/
theorem step (h : Tallied e c) (hKilled : c.killed e.settledCount = e.isCommandCanceled)
    (hMove : Moves e s e') : Tallied e' (c.add e s) := by
  cases hMove with
  | signal | cancel =>
      exact ⟨h.settled_le, h.settled_lt, h.launched, h.endings_length, h.ended, h.failures⟩
  | dropPending hPhase hNext =>
      obtain ⟨hLaunched, hEndings⟩ := h.counts hPhase
      exact ⟨h.settled_le, fun _ => lt_of_current? hNext, hLaunched, hEndings, nofun, h.failures⟩
  | @launch command hPhase hNext =>
      obtain ⟨hLaunched, hEndings⟩ := h.counts hPhase
      refine ⟨h.settled_le, fun _ => lt_of_current? hNext, ?_, hEndings, nofun, h.failures⟩
      have hCommand : e.commands[e.settledCount]? = some command := hNext
      have hLaunched' : e.launched = e.commands.take e.settledCount := hLaunched
      change e.launched ++ [command] = e.commands.take (e.settledCount + 1)
      rw [List.take_add_one, hCommand, hLaunched']
      rfl
  | watchSignal hPending hPhase =>
      refine h.kill hPhase ⟨rfl, rfl, rfl, rfl⟩ rfl rfl fun i hi => ?_
      refine killed_append _ (fun k hk => ?_) rfl hi
      obtain ⟨n, -, rfl⟩ := Option.map_eq_some_iff.mp (Option.mem_toList.mp hk)
      rfl
  | watchCancel hReady hPhase =>
      refine h.kill hPhase ⟨rfl, rfl, rfl, rfl⟩ rfl rfl fun i hi => ?_
      exact killed_append _ (fun k hk => List.mem_singleton.mp hk ▸ rfl) rfl hi
  | @finish canceled o hPhase =>
      obtain ⟨hLaunched, hEndings⟩ := h.counts hPhase
      have hLength : c.endings.length = e.settledCount := hEndings
      refine ⟨h.settled_le, fun _ => h.settled_lt (by rw [hPhase]; nofun), hLaunched, ?_, ?_, ?_⟩
      · exact (List.length_append).trans (congrArg (· + 1) hLength)
      · rintro canceled' o' hSame
        cases hSame
        change (c.endings ++ [o])[e.settledCount]? = some o
        rw [← hLength, List.getElem?_concat_length]
      · have hEarlier : ∀ i < e.settledCount, (c.add e (.finish o)).endings[i]? = c.endings[i]? :=
          fun i hi => List.getElem?_append_left (hLength ▸ hi)
        have hSame := failures_congr e.commands hEarlier fun _ _ => rfl
        exact h.failures.trans hSame.symm
  | settle hPhase hNext => exact h.settle hKilled hPhase hNext

end Tallied

/-- A run keeps working on the commands of its plan. -/
theorem Moves.commands_eq (hMove : Moves e s e') : e'.commands = e.commands := by
  cases hMove <;> rfl

/-- The commands of a run are those of the plan from beginning to end. -/
theorem commands_steps (e : Execution) (ss : List Step) : (e.steps ss).commands = e.commands :=
  observed_induction (motive := fun e' _ => e'.commands = e.commands) ss rfl
    fun _ _ _ _ h hMove => hMove.commands_eq.trans h

/-- The tally is kept in every run. -/
theorem tallied (p : Plan) (ss : List Step) :
    Tallied ((start p).steps ss) ((start p).chronicle ss) :=
  (observed_induction (motive := fun e c => Accounted e c ∧ Tallied e c) ss ⟨.start p, .start p⟩
    fun _ _ _ _ h hMove => ⟨h.1.step hMove, h.2.step h.1.killed_current hMove⟩).2

end Execution

end Runsheet
