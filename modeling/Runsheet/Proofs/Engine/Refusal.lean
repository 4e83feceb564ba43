import Runsheet.Proofs.Engine.Invariant

/-! What a refused call leaves behind once the script has begun. Every check comes before the first
change, so the state stays as it was; only the end of a case statement that finds labels missing
marks the statement as closed, and only the end of the script changes more, though never the plan. -/
namespace Runsheet

namespace State

variable {config : Config} {s s' : State} {e : Event} {pos start : Pos} {f : Failure}

/-- An open alternative has a block of its own, and each of its labels has one, so its end is refused
before anything changes. -/
theorem endAlternative_refused (hBalanced : s.Balanced) (hSound : s.Sound)
    (h : s.endAlternative = (s', some f)) : s' = s := by
  cases refused_of_endAlternative h with
  | unchanged => rfl
  | withoutBlock hCases hOpen hDepth =>
      rw [Balanced, hCases, List.countP_cons, if_pos hOpen] at hBalanced
      omega
  | withoutTarget hCases _ _ hMissing =>
      exact absurd (hSound.absorb_eq_none (hCases ▸ List.mem_cons_self) _) hMissing

/-- No refused call makes a plan or drops the one there is. -/
theorem Refused.plan_eq (h : Refused s e s') : s'.plan = s.plan := by
  cases h with
  | unchanged | closed | withoutBlock | ended => rfl
  | @withoutTarget c => cases c.kind <;> rfl

/-- Once the script has begun, open blocks go with open alternatives, whatever was refused. -/
theorem balanced_after (config : Config) (start : Pos) (calls : List Call) :
    (after config {} ((.beginScript, start) :: calls)).Balanced := by
  have hMain : (State.take config {} .beginScript start).1.Balanced := rfl
  exact after_induction calls hMain fun _ e pos h => h.call config e pos

/-- A refused event other than the end of the script changes nothing, or marks the innermost case
statement as closed if labels are missing at its end. -/
theorem Balanced.refused_take (hBalanced : s.Balanced) (hSound : s.Sound)
    (hEvent : e ≠ .endScript) (h : s.take config e pos = (s', some f)) :
    (e = .endCase ∧ ∃ c cs, s.cases = c :: cs ∧ c.closed = false ∧
        f = .diagnostic (c.incomplete (c.unusedLabels (s.subjectOf c)) pos) ∧
        s' = { s with cases := { c with closed := true } :: cs }) ∨
      (e = .endCase → ∃ v, f = .violation v) ∧ s' = s := by
  cases e with
  | endAlternative => exact Or.inr ⟨nofun, endAlternative_refused hBalanced hSound h⟩
  | endCase =>
      rcases endCase_eq_some h with ⟨rfl, hBroken, -⟩ | ⟨c, cs, hCases, -, hClosed, -, rfl, rfl⟩
      · exact Or.inr ⟨fun _ => hBroken, rfl⟩
      · exact Or.inl ⟨rfl, c, cs, hCases, hClosed, rfl, rfl⟩
  | endScript => exact absurd rfl hEvent
  | _ => exact Or.inr ⟨nofun, take_refused h ⟨nofun, nofun, nofun⟩⟩

/-- After the beginning of a script and any calls, a refused call leaves the state as it was, unless
it is the end of a case statement with labels missing, which marks the statement as closed and does
nothing else, or the end of the script, which leaves the plan as it was. -/
theorem step_refused {calls : List Call} {d : Diagnostic}
    (h : (after config {} ((.beginScript, start) :: calls)).step config e pos = (s', some d)) :
    (e ≠ .endScript → ¬ (e = .endCase ∧ d.kind = .incompleteCase) →
      s' = after config {} ((.beginScript, start) :: calls)) ∧
    (e = .endCase → d.kind = .incompleteCase →
      ∃ c cs, (after config {} ((.beginScript, start) :: calls)).cases = c :: cs ∧
        c.closed = false ∧
        s' = { after config {} ((.beginScript, start) :: calls) with
          cases := { c with closed := true } :: cs }) ∧
    (e = .endScript → s'.plan = (after config {} ((.beginScript, start) :: calls)).plan) := by
  have hBalanced := balanced_after config start calls
  have hSound := sound_after config ((.beginScript, start) :: calls)
  generalize after config {} ((.beginScript, start) :: calls) = s at h hBalanced hSound ⊢
  obtain ⟨f, hTake, rfl⟩ : ∃ f, s.take config e pos = (s', some f) ∧ f.toDiagnostic = d := by
    rw [step] at h
    cases hTake : s.take config e pos with
    | mk s₁ failure =>
        rw [hTake] at h
        obtain ⟨rfl, hFailure⟩ := Prod.mk.inj h
        obtain ⟨f, rfl, hf⟩ := Option.map_eq_some_iff.mp hFailure
        exact ⟨f, rfl, hf⟩
  refine ⟨fun hEvent hOther => ?_, fun hEnd hKind => ?_, fun _ => (refused_of_take hTake).plan_eq⟩
  · rcases hBalanced.refused_take hSound hEvent hTake with ⟨hEnd, c, cs, -, -, rfl, -⟩ | ⟨-, rfl⟩
    · exact absurd ⟨hEnd, rfl⟩ hOther
    · rfl
  · subst hEnd
    have hEvent : Event.endCase ≠ .endScript := by decide
    rcases hBalanced.refused_take hSound hEvent hTake with
      ⟨-, c, cs, hCases, hClosed, -, rfl⟩ | ⟨hBroken, -⟩
    · exact ⟨c, cs, hCases, hClosed, rfl⟩
    · -- A broken contract is told as an internal error, not as missing labels.
      obtain ⟨v, rfl⟩ := hBroken rfl
      cases hKind

/-- A case statement over a choice with one label, which has no alternative yet. -/
def unansweredCase : List Call :=
  [.declare .choice "c", .addLabel .choice "c" "a", .beginCase "c"].map (·, Pos.none)

/-- A case statement without alternatives is marked as closed by its refused end, and stays open in
every other respect. -/
theorem step_refused_unansweredCase :
    ∃ s' d, (after {} {} ((.beginScript, .none) :: unansweredCase)).step {} .endCase .none =
        (s', some d) ∧ d.kind = .incompleteCase ∧
      ∃ c cs, (after {} {} ((.beginScript, .none) :: unansweredCase)).cases = c :: cs ∧
        c.closed = false ∧
        s' = { after {} {} ((.beginScript, .none) :: unansweredCase) with
          cases := { c with closed := true } :: cs } := by
  obtain ⟨s', d, hStep, hKind⟩ : ∃ s' d,
      (after {} {} ((.beginScript, .none) :: unansweredCase)).step {} .endCase .none =
        (s', some d) ∧ d.kind = .incompleteCase := ⟨_, _, rfl, rfl⟩
  exact ⟨s', d, hStep, hKind, (step_refused hStep).2.1 rfl hKind⟩

end State

end Runsheet
