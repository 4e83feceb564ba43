import Runsheet.Proofs.Engine.Contract
import Runsheet.Proofs.Engine.Soundness

/-! Calls of the engine in any order, by a caller that goes on after a refusal. A refused call leaves
almost nothing behind, so what every taken event keeps is kept by every call. -/
namespace Runsheet

/-- A call of the engine: an event and its place. -/
abbrev Call := Event × Pos

namespace State

variable {config : Config} {s s' : State} {e : Event} {pos : Pos} {f : Failure}

/-- The state after some calls, each of them taken or refused. -/
def after (config : Config) (s : State) (calls : List Call) : State :=
  calls.foldl (fun s c => (s.step config c.1 c.2).1) s

/-- The events of the calls that are taken, in order. -/
def accepted (config : Config) : State → List Call → List Event
  | _, [] => []
  | s, c :: calls =>
    (if (s.step config c.1 c.2).2.isNone then [c.1] else []) ++
      accepted config (s.step config c.1 c.2).1 calls

@[simp] theorem step_fst (config : Config) (s : State) (e : Event) (pos : Pos) :
    (s.step config e pos).1 = (s.take config e pos).1 := rfl

/-- A step is refused exactly when the event is. Telling the user about a broken contract changes
nothing in this. -/
@[simp] theorem step_snd_eq_none_iff :
    (s.step config e pos).2 = none ↔ (s.take config e pos).2 = none := by
  simp [step]

/-- Calls in two parts leave the state that the second part makes of what the first one left. -/
theorem after_append (config : Config) (s : State) (calls more : List Call) :
    after config s (calls ++ more) = after config (after config s calls) more := by
  simp [after]

/-- The taken events of calls in two parts are those of the first part and then those of the second,
made in the state that the first one left. -/
theorem accepted_append (config : Config) (s : State) (calls more : List Call) :
    accepted config s (calls ++ more) =
      accepted config s calls ++ accepted config (after config s calls) more := by
  induction calls generalizing s with
  | nil => rfl
  | cons c calls ih => simp [accepted, ih, after]

/-- What every call keeps, taken or refused, holds after all calls. -/
theorem after_induction {motive : State → Prop} (calls : List Call) (hStart : motive s)
    (hStep : ∀ s e pos, motive s → motive (s.take config e pos).1) :
    motive (after config s calls) := by
  induction calls generalizing s with
  | nil => exact hStart
  | cons c calls ih => exact ih (hStep s c.1 c.2 hStart)

/-- What a refused call leaves behind. An end of a case statement with labels missing closes the
statement, an end of an alternative without a block of its own closes the alternative, one with a
label that has no block also drops the block and enriches the labels before, and an end of the script
may have made selections. -/
inductive Refused (s : State) : Event → State → Prop
  | unchanged (e : Event) : Refused s e s
  | closed {c : CaseCheck} {cs : List CaseCheck} (hCases : s.cases = c :: cs)
      (hOpen : c.inAlternative = false) (hClosed : c.closed = false)
      (hUnused : c.unusedLabels (s.subjectOf c) ≠ []) :
      Refused s .endCase { s with cases := { c with closed := true } :: cs }
  | withoutBlock {c : CaseCheck} {cs : List CaseCheck} (hCases : s.cases = c :: cs)
      (hOpen : c.inAlternative = true) (hDepth : s.scopes.depth ≤ 1) :
      Refused s .endAlternative { s with cases := { c with inAlternative := false } :: cs }
  | withoutTarget {c : CaseCheck} {cs : List CaseCheck} {b b' : Block} {bs : List Block}
      {diary : Diary} (hCases : s.cases = c :: cs) (hOpen : c.inAlternative = true)
      (hBlocks : s.scopes.blocks = b :: b' :: bs)
      (hMissing : ((s.subjectOf c).blocks.absorb b c.current).2 ≠ none) :
      Refused s .endAlternative
        { s.setRegistry c.kind
            ((s.registry c.kind).modify c.subject (·.enrich c.current b)) with
          cases := { c with inAlternative := false } :: cs
          scopes := ⟨b' :: bs⟩, toDiary := diary }
  | ended {r : Resolver} (hAdmitted : s.endViolation? = none)
      (hSame : s.choices.SameButSelected r.choices) (hSound : s.toResolver.Sound → r.Sound) :
      Refused s .endScript { s with toResolver := r, done := true }

/-- The three ways in which the end of an alternative is refused leave three different states
behind. -/
theorem refused_of_endAlternative (h : s.endAlternative = (s', some f)) :
    Refused s .endAlternative s' := by
  rcases s.endAlternative_cases with ⟨v, hEnd, -⟩ | ⟨c, cs, hCases, hOpen, -, hRest⟩
  · rw [hEnd] at h
    cases h
    exact .unchanged _
  · rcases hRest with ⟨hDepth, v, hEnd⟩ | ⟨b, b', bs, diary, hBlocks, hEnd⟩
    · rw [hEnd] at h
      cases h
      exact .withoutBlock hCases hOpen hDepth
    · rw [hEnd] at h
      obtain ⟨rfl, hFailure⟩ := Prod.mk.inj h
      refine .withoutTarget hCases hOpen hBlocks fun hNone => ?_
      rw [hNone] at hFailure
      cases hFailure

/-- The end of a case statement is refused with the state unchanged or with the statement marked as
closed. -/
theorem refused_of_endCase (h : s.endCase pos = (s', some f)) : Refused s .endCase s' := by
  rcases endCase_eq_some h with ⟨rfl, -⟩ | ⟨c, cs, hCases, hOpen, hClosed, hUnused, -, rfl⟩
  · exact .unchanged _
  · exact .closed hCases hOpen hClosed hUnused

/-- When no plan can be made, what was told about the sources is all that is new. -/
theorem makePlan_eq_some {selections : List Selection}
    (h : makePlan config s selections pos = (s', some f)) :
    ∃ diary, s' = { s with toDiary := diary } := by
  obtain ⟨diary, hSources⟩ := resolveSources_eq config s
  rw [makePlan] at h
  split at h
  · cases h
    exact ⟨s.toDiary, rfl⟩
  · rw [hSources] at h
    cases hGiven : s.sourcesOf config with
    | none =>
        rw [hGiven] at h
        cases h
        exact ⟨diary, rfl⟩
    | some sources =>
        rw [hGiven] at h
        dsimp only at h
        split at h
        · cases h
          exact ⟨diary, rfl⟩
        · split at h
          · cases h
            exact ⟨diary, rfl⟩
          · cases h

/-- From the first directive on the script counts as ended, and selections already made by then
stay. -/
theorem refused_of_endScript (h : endScript config s pos = (s', some f)) :
    Refused s .endScript s' := by
  rw [endScript] at h
  split at h
  · cases h
    exact .unchanged _
  · rename_i hAdmitted
    dsimp only at h
    obtain ⟨hSame₁, hSound₁⟩ := Resolver.applyDirectives_spec config.directives s.toResolver
    split at h
    · rename_i r₁ d hApply
      cases h
      rw [hApply] at hSame₁ hSound₁
      exact .ended hAdmitted hSame₁ hSound₁
    · rename_i r₁ hApply
      rw [hApply] at hSame₁ hSound₁
      obtain ⟨hSame₂, hSound₂, -⟩ := Resolver.resolve_spec r₁ s.choiceCaseOccurred pos
      have hSame := hSame₁.trans hSame₂
      split at h
      · rename_i r₂ d hResolve
        cases h
        rw [hResolve] at hSame hSound₂
        exact .ended hAdmitted hSame fun hr => hSound₂ (hSound₁ hr)
      · rename_i r₂ selections hResolve
        rw [hResolve] at hSame hSound₂
        obtain ⟨diary, rfl⟩ := makePlan_eq_some h
        refine .ended (r := { r₂ with toDiary := diary }) hAdmitted hSame fun hr => ?_
        exact (hSound₂ (hSound₁ hr)).congr rfl rfl

/-- A refused call leaves nothing behind that is not listed. -/
theorem refused_of_take (h : s.take config e pos = (s', some f)) : Refused s e s' := by
  cases e with
  | endAlternative => exact refused_of_endAlternative h
  | endCase => exact refused_of_endCase h
  | endScript => exact refused_of_endScript h
  | _ =>
      obtain rfl := take_refused h ⟨nofun, nofun, nofun⟩
      exact .unchanged _

end State

end Runsheet
