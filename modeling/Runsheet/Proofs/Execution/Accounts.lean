import Mathlib.Data.List.Nodup
import Runsheet.Proofs.Execution.Chronicle

/-! The accounts of a run. An interrupt that a watcher acted on, or that was dropped between two
commands, is spent and never acted on again, in every order in which a run can take its steps. -/
namespace Runsheet

/-- An interrupt that arrived and that no watcher can act on any more: a signal that somebody took,
or the cancellation once it was used. -/
def Chronicle.Spent (c : Chronicle) (e : Execution) : Interrupt → Prop
  | .signal n => n < c.arrived ∧ n ∉ c.queue
  | .cancellation => e.cancelUsed = true

namespace Execution

variable {e e' : Execution} {c c' : Chronicle} {s : Step}

/-- The signals that nobody has taken are told apart, and the cancellation is used only after it
came. -/
structure Queued (e : Execution) (c : Chronicle) : Prop where
  length_eq : c.queue.length = e.pending
  nodup : c.queue.Nodup
  lt_arrived : ∀ n ∈ c.queue, n < c.arrived
  canceled : e.cancelUsed = true → e.canceled = true

/-- A step keeps the queue in accord with the chronicle: interrupts join at its end and leave from
its front, one by one. -/
theorem Queued.step (h : Queued e c) (hMove : Moves e s e') : Queued e' (c.add e s) := by
  cases hMove with
  | signal =>
      have hFresh : c.arrived ∉ c.queue := fun hMem => Nat.lt_irrefl _ (h.lt_arrived _ hMem)
      refine ⟨?_, ?_, fun n hn => ?_, h.canceled⟩
      · simp [Chronicle.add, Chronicle.record, h.length_eq]
      · simpa [Chronicle.add, Chronicle.record] using List.Nodup.concat hFresh h.nodup
      · rcases List.mem_append.mp hn with hn | hn
        · exact Nat.lt_succ_of_lt (h.lt_arrived n hn)
        · exact List.mem_singleton.mp hn ▸ Nat.lt_succ_self _
  | cancel => exact ⟨h.length_eq, h.nodup, h.lt_arrived, fun _ => rfl⟩
  | dropPending =>
      refine ⟨rfl, .nil, nofun, fun hUsed => ?_⟩
      rcases Bool.or_eq_true_iff.mp hUsed with hUsed | hCanceled
      · exact h.canceled hUsed
      · exact hCanceled
  | watchSignal =>
      refine ⟨?_, h.nodup.tail, fun n hn => h.lt_arrived n (List.mem_of_mem_tail hn), h.canceled⟩
      exact List.length_tail.trans (congrArg (· - 1) h.length_eq)
  | watchCancel hReady =>
      exact ⟨h.length_eq, h.nodup, h.lt_arrived, fun _ => (Bool.and_eq_true_iff.mp hReady).1⟩
  | launch | finish | settle => exact ⟨h.length_eq, h.nodup, h.lt_arrived, h.canceled⟩

/-- What is spent stays spent. -/
theorem spent_step {x : Interrupt} (hSpent : c.Spent e x) (hMove : Moves e s e') :
    (c.add e s).Spent e' x := by
  cases x with
  | signal n =>
      obtain ⟨hArrived, hTaken⟩ := hSpent
      cases hMove with
      | signal =>
          refine ⟨Nat.lt_succ_of_lt hArrived, fun hMem => ?_⟩
          rcases List.mem_append.mp hMem with hMem | hMem
          · exact hTaken hMem
          · exact Nat.ne_of_lt hArrived (List.mem_singleton.mp hMem)
      | dropPending => exact ⟨hArrived, nofun⟩
      | watchSignal => exact ⟨hArrived, fun hMem => hTaken (List.mem_of_mem_tail hMem)⟩
      | cancel | launch | watchCancel | finish | settle => exact ⟨hArrived, hTaken⟩
  | cancellation =>
      have hUsed : e.cancelUsed = true := hSpent
      cases hMove with
      | dropPending => exact Bool.or_eq_true_iff.mpr (Or.inl hUsed)
      | watchCancel => rfl
      | signal | cancel | launch | watchSignal | finish | settle => exact hUsed

/-- Every kill is by an interrupt of its own and of a command of its own, and what was pending
before a command is spent for that command and for those after it. -/
structure Accounted (e : Execution) (c : Chronicle) : Prop extends Queued e c where
  spent : ∀ k ∈ c.kills, c.Spent e k.cause
  causes_nodup : (c.kills.map Kill.cause).Nodup
  index_le : ∀ k ∈ c.kills, k.index ≤ e.settledCount
  indices_nodup : (c.kills.map Kill.index).Nodup
  killed_current : c.killed e.settledCount = e.isCommandCanceled
  cleared_le : ∀ d ∈ c.clearances, d.index ≤ e.settledCount
  cleared_spent : ∀ d ∈ c.clearances, ∀ x ∈ d.pending, c.Spent e x
  cleared_before : ∀ d ∈ c.clearances, ∀ k ∈ c.kills, k.cause ∈ d.pending → k.index < d.index

/-- A command counts as killed exactly when some kill was recorded under its number. -/
theorem killed_iff {index : Nat} : c.killed index = true ↔ ∃ k ∈ c.kills, k.index = index := by
  simp [Chronicle.killed]

/-- A watcher that can still act has not cancelled the command yet, and then it has. -/
theorem canceled_of_canceledPhase? {phase : Phase} (h : canceledPhase? e.phase = some phase) :
    e.isCommandCanceled = false ∧ isCommandCanceled { e with phase } = true := by
  rw [isCommandCanceled]
  generalize e.phase = old at h
  match old with
  | .running false | .ended false _ =>
      cases h
      exact ⟨rfl, rfl⟩

namespace Accounted

theorem start (p : Plan) : Accounted (start p) {} where
  length_eq := rfl
  nodup := .nil
  lt_arrived := nofun
  canceled := nofun
  spent := nofun
  causes_nodup := .nil
  index_le := nofun
  indices_nodup := .nil
  killed_current := rfl
  cleared_le := nofun
  cleared_spent := nofun
  cleared_before := nofun

/-- While the context of the current command is not cancelled, all kills are of earlier ones. -/
theorem index_lt (h : Accounted e c) (hRunning : e.isCommandCanceled = false) :
    ∀ k ∈ c.kills, k.index < e.settledCount := by
  intro k hk
  refine Nat.lt_of_le_of_ne (h.index_le k hk) fun hIndex => ?_
  have hKilled : c.killed e.settledCount = true := killed_iff.mpr ⟨k, hk, hIndex⟩
  rw [h.killed_current, hRunning] at hKilled
  cases hKilled

/-- A step that neither kills nor drops anything. -/
theorem idle (h : Accounted e c) (hMove : Moves e s e') (hKills : (c.add e s).kills = c.kills)
    (hClearances : (c.add e s).clearances = c.clearances) (hSettled : e.settledCount ≤ e'.settledCount)
    (hCurrent : c.killed e'.settledCount = e'.isCommandCanceled) : Accounted e' (c.add e s) where
  toQueued := h.toQueued.step hMove
  spent := by
    rw [hKills]
    exact fun k hk => spent_step (h.spent k hk) hMove
  causes_nodup := hKills ▸ h.causes_nodup
  index_le := by
    rw [hKills]
    exact fun k hk => Nat.le_trans (h.index_le k hk) hSettled
  indices_nodup := hKills ▸ h.indices_nodup
  killed_current := by
    rw [Chronicle.killed, hKills]
    exact hCurrent
  cleared_le := by
    rw [hClearances]
    exact fun d hd => Nat.le_trans (h.cleared_le d hd) hSettled
  cleared_spent := by
    rw [hClearances]
    exact fun d hd x hx => spent_step (h.cleared_spent d hd x hx) hMove
  cleared_before := by
    rw [hKills, hClearances]
    exact h.cleared_before

/-- A further kill with a cause, or of a command, that no earlier kill has. -/
theorem nodup_map_concat {α : Type} {f : Kill → α} {kills : List Kill} {k : Kill}
    (h : (kills.map f).Nodup) (hNew : ∀ k' ∈ kills, f k' ≠ f k) :
    ((kills ++ [k]).map f).Nodup := by
  have hFresh : f k ∉ kills.map f := fun hMem => by
    obtain ⟨k', hk', hSame⟩ := List.mem_map.mp hMem
    exact hNew k' hk' hSame
  simpa using h.concat hFresh

/-- A watcher acts on an interrupt that was not spent, and it is spent then. -/
theorem kill (h : Accounted e c) (hMove : Moves e s e') {x : Interrupt} {phase : Phase}
    (hPhase : canceledPhase? e.phase = some phase)
    (hKills : (c.add e s).kills = c.kills ++ [⟨e.settledCount, x⟩])
    (hClearances : (c.add e s).clearances = c.clearances) (hFresh : ¬ c.Spent e x)
    (hSpent : (c.add e s).Spent e' x) (hSettled : e'.settledCount = e.settledCount)
    (hPhase' : e'.phase = phase) : Accounted e' (c.add e s) := by
  obtain ⟨hRunning, hCanceled⟩ := canceled_of_canceledPhase? hPhase
  have hEarlier := h.index_lt hRunning
  refine
    { toQueued := h.toQueued.step hMove
      spent := ?_
      causes_nodup := ?_
      index_le := ?_
      indices_nodup := ?_
      killed_current := ?_
      cleared_le := ?_
      cleared_spent := ?_
      cleared_before := ?_ }
  · rw [hKills]
    intro k hk
    rcases List.mem_append.mp hk with hk | hk
    · exact spent_step (h.spent k hk) hMove
    · exact List.mem_singleton.mp hk ▸ hSpent
  · rw [hKills]
    refine nodup_map_concat h.causes_nodup fun k hk hSame => hFresh ?_
    have hCause : k.cause = x := hSame
    exact hCause ▸ h.spent k hk
  · rw [hKills, hSettled]
    intro k hk
    rcases List.mem_append.mp hk with hk | hk
    · exact h.index_le k hk
    · exact List.mem_singleton.mp hk ▸ Nat.le_refl _
  · rw [hKills]
    exact nodup_map_concat h.indices_nodup fun k hk => Nat.ne_of_lt (hEarlier k hk)
  · have hNow : e'.isCommandCanceled = true := by
      rw [← hCanceled, isCommandCanceled, hPhase', isCommandCanceled]
    rw [hNow, hSettled, killed_iff]
    exact ⟨⟨e.settledCount, x⟩, by rw [hKills]; exact List.mem_append_right _ List.mem_cons_self, rfl⟩
  · rw [hClearances, hSettled]
    exact h.cleared_le
  · rw [hClearances]
    exact fun d hd y hy => spent_step (h.cleared_spent d hd y hy) hMove
  · rw [hKills, hClearances]
    intro d hd k hk hPending
    rcases List.mem_append.mp hk with hk | hk
    · exact h.cleared_before d hd k hk hPending
    · obtain rfl := List.mem_singleton.mp hk
      exact absurd (h.cleared_spent d hd x hPending) hFresh

/-- Before a command everything that is pending is dropped, and no kill is of that command yet. -/
theorem drop (h : Accounted e c) {command : Command} (hPhase : e.phase = .between)
    (hNext : e.current? = some command) : Accounted e.afterDrop (c.add e .dropPending) := by
  have hMove : Moves e .dropPending e.afterDrop := .dropPending hPhase hNext
  have hIdle : e.isCommandCanceled = false := by rw [isCommandCanceled, hPhase]
  refine
    { toQueued := h.toQueued.step hMove
      spent := ?_
      causes_nodup := ?_
      index_le := ?_
      indices_nodup := ?_
      killed_current := ?_
      cleared_le := ?_
      cleared_spent := ?_
      cleared_before := ?_ }
  · exact fun k hk => spent_step (h.spent k hk) hMove
  · exact h.causes_nodup
  · exact h.index_le
  · exact h.indices_nodup
  · exact h.killed_current.trans hIdle
  · intro d hd
    rcases List.mem_append.mp hd with hd | hd
    · exact h.cleared_le d hd
    · exact List.mem_singleton.mp hd ▸ Nat.le_refl _
  · intro d hd x hx
    rcases List.mem_append.mp hd with hd | hd
    · exact spent_step (h.cleared_spent d hd x hx) hMove
    · obtain rfl := List.mem_singleton.mp hd
      rcases List.mem_append.mp hx with hx | hx
      · obtain ⟨n, hn, rfl⟩ := List.mem_map.mp hx
        exact ⟨h.lt_arrived n hn, nofun⟩
      · split at hx
        · rename_i hCanceled
          obtain rfl := List.mem_singleton.mp hx
          exact Bool.or_eq_true_iff.mpr (Or.inr hCanceled)
        · cases hx
  · intro d hd k hk hPending
    rcases List.mem_append.mp hd with hd | hd
    · exact h.cleared_before d hd k hk hPending
    · exact List.mem_singleton.mp hd ▸ h.index_lt hIdle k hk

/-- Every step keeps the accounts. -/
theorem step (h : Accounted e c) (hMove : Moves e s e') : Accounted e' (c.add e s) := by
  have hCurrent := h.killed_current
  cases hMove with
  | signal => exact h.idle .signal rfl rfl (Nat.le_refl _) hCurrent
  | cancel => exact h.idle .cancel rfl rfl (Nat.le_refl _) hCurrent
  | dropPending hPhase hNext => exact h.drop hPhase hNext
  | launch hPhase hNext =>
      rw [isCommandCanceled, hPhase] at hCurrent
      exact h.idle (.launch hPhase hNext) rfl rfl (Nat.le_refl _) hCurrent
  | watchSignal hPending hPhase =>
      -- The watcher takes the signal that arrived first, which is gone from the queue then.
      cases hQueue : c.queue with
      | nil =>
          have hLength := h.length_eq
          rw [hQueue] at hLength
          exact absurd hLength (Nat.ne_of_lt hPending)
      | cons n queue =>
          have hn : n ∈ c.queue := hQueue ▸ List.mem_cons_self
          have hNodup : n ∉ queue := (List.nodup_cons.mp (hQueue ▸ h.nodup)).1
          refine h.kill (x := .signal n) (.watchSignal hPending hPhase) hPhase ?_ rfl
            (fun hSpent => hSpent.2 hn) ⟨h.lt_arrived n hn, ?_⟩ rfl rfl
          · simp [Chronicle.add, Chronicle.record, hQueue]
          · simpa [Chronicle.add, Chronicle.record, hQueue] using hNodup
  | watchCancel hReady hPhase =>
      obtain ⟨-, hUnused⟩ := Bool.and_eq_true_iff.mp hReady
      have hFresh : ¬ c.Spent e .cancellation := fun hSpent => by
        have hUsed : e.cancelUsed = true := hSpent
        rw [hUsed] at hUnused
        cases hUnused
      exact h.kill (.watchCancel hReady hPhase) hPhase rfl rfl hFresh rfl rfl rfl
  | finish o hPhase =>
      rw [isCommandCanceled, hPhase] at hCurrent
      exact h.idle (.finish o hPhase) rfl rfl (Nat.le_refl _) hCurrent
  | settle hPhase hNext =>
      refine h.idle (.settle hPhase hNext) rfl rfl (Nat.le_succ _) ?_
      -- The next command has not been launched, so nobody has killed it.
      refine Bool.eq_false_iff.mpr fun hKilled => ?_
      obtain ⟨k, hk, hIndex⟩ := killed_iff.mp hKilled
      exact Nat.not_succ_le_self _ (hIndex ▸ h.index_le k hk)

end Accounted

/-- The accounts are kept in every run. -/
theorem accounted (p : Plan) (ss : List Step) :
    Accounted ((start p).steps ss) ((start p).chronicle ss) :=
  observed_induction ss (.start p) fun _ _ _ _ h hMove => h.step hMove

end Execution

end Runsheet
