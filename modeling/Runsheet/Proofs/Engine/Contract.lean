import Runsheet.Proofs.Engine.Soundness

/-! The calling contract of the engine. An event that the state admits is taken or refused for a
reason that lies in the script; only an event that is not admitted can break a contract. -/
namespace Runsheet

/-- A diagnostic about a script: an error, and neither a warning nor a broken contract. -/
def Diagnostic.IsUserError (d : Diagnostic) : Prop :=
  d.severity = .error ∧ d.kind ≠ .internalError ∧ d.kind ≠ .warning

theorem Diagnostic.IsUserError.of_kind {d : Diagnostic} (hSeverity : d.severity = .error)
    (hKind : (d.kind == .internalError || d.kind == .warning) = false) : d.IsUserError := by
  rw [Bool.or_eq_false_iff, beq_eq_false_iff_ne, beq_eq_false_iff_ne] at hKind
  exact ⟨hSeverity, hKind⟩

/-- An error of a kind that is neither internal nor a warning is one the writer of the script can
mend. -/
theorem Diagnostic.IsErrorAt.isUserError {d : Diagnostic} {kind : DiagnosticKind} {pos : Pos}
    (h : d.IsErrorAt kind pos) (hKind : (kind == .internalError || kind == .warning) = false) :
    d.IsUserError :=
  .of_kind h.severity_eq (h.kind_eq ▸ hKind)

namespace Resolver

variable {r r' : Resolver} {choice label : Text} {pos : Pos} {d : Diagnostic}

/-- A select statement is refused for a choice or a label, which is always for the user to mend. -/
theorem Refuses.isUserError (h : r.Refuses choice label pos d) : d.IsUserError := by
  rcases h with ⟨-, hRejects⟩ | ⟨a, -, -, hRejects⟩
  · exact hRejects.isUserError rfl
  · exact hRejects.isUserError rfl

/-- The same for directives, which are refused like select statements but without a place. -/
theorem applyDirectives_error {directives : List Directive}
    (h : r.applyDirectives directives = (r', some d)) : d.IsUserError := by
  obtain ⟨directive, -, r₁, hRefuses⟩ := applyDirectives_refuses h
  exact hRefuses.isUserError

/-- Labels that cannot be resolved are the user's doing: a default is missing, or a choice is
ambiguous. -/
theorem resolve_error {occurred : Bool} (h : r.resolve occurred pos = (r', .error d)) :
    d.IsUserError := by
  obtain ⟨hSeverity, -, hKind | hKind⟩ := resolve_refuses h
  · exact .of_kind hSeverity (by rw [hKind]; rfl)
  · exact .of_kind hSeverity (by rw [hKind]; rfl)

end Resolver

namespace State

/-- What has to hold of a state before an event. The first event begins the script, and the last
one finds one block and no case statement open; labels are added to declared axes and to open
alternatives; an alternative ends with labels, each of which has a block to be enriched. -/
def Admits (s : State) : Event → Prop
  | .beginScript => s.scopes.depth = 0
  | .addSwitch _ => 0 < s.scopes.depth
  | .addLabel kind name _ | .setDefault kind name _ => name ∈ (s.registry kind).names
  | .beginAlternative => ∃ c cs, s.cases = c :: cs ∧ c.closed = false ∧ c.inAlternative = false
  | .addAlternativeLabel _ => ∃ c cs, s.cases = c :: cs ∧ c.inAlternative = true
  | .endAlternative => 1 < s.scopes.depth ∧ ∃ c cs, s.cases = c :: cs ∧ c.inAlternative = true ∧
      c.current ≠ [] ∧ ∀ l ∈ c.current, ((s.subjectOf c).block? l).isSome
  | .endCase => ∃ c cs, s.cases = c :: cs ∧ c.closed = false ∧ c.inAlternative = false
  | .endScript => s.done = false ∧ s.scopes.depth = 1 ∧ s.cases = []
  | .setTool _ | .addSource _ | .declare .. | .beginCase _ | .select .. => True

variable {config : Config} {s s' : State} {pos : Pos} {f : Failure}

/-- An alternative that has been opened and has labels is always closed. Its block is there, and
each label was checked against the subject when it was added. -/
theorem endAlternative_ne_some (hAdmits : s.Admits .endAlternative) :
    s.endAlternative ≠ (s', some f) := by
  intro h
  obtain ⟨hDepth, c, cs, hCases, hOpen, hLabels, hTargets⟩ := hAdmits
  rcases s.endAlternative_cases with ⟨v, -, hShut⟩ | ⟨c', cs', hCases', -, -, hRest⟩
  · rcases hShut c cs hCases with hClosed | hNone
    · exact Bool.false_ne_true (hClosed.symm.trans hOpen)
    · exact hLabels hNone
  · obtain ⟨rfl, rfl⟩ := List.cons.inj (hCases.symm.trans hCases')
    rcases hRest with ⟨hAlone, -⟩ | ⟨b, b', bs, diary, -, hEnd⟩
    · exact Nat.not_lt.mpr hAlone hDepth
    · have hReached : ((s.subjectOf c).blocks.absorb b c.current).2 = none :=
        Shelf.absorb_eq_none_iff.mpr fun l hl => Shelf.get?_isSome_iff.mp (hTargets l hl)
      rw [hEnd, hReached] at h
      cases h

/-- With its main block open and a block for every selected label, a script gets its plan unless the
tool or the sources are missing. -/
theorem makePlan_some {selections : List Selection} (hDepth : 0 < s.scopes.depth)
    (hBacked : ∀ sources, (s.recipe selections sources).Backed)
    (h : makePlan config s selections pos = (s', some f)) :
    ∃ d, f = .diagnostic d ∧ d.IsUserError := by
  obtain ⟨diary, hSources⟩ := resolveSources_eq config s
  rw [makePlan] at h
  split at h
  · cases h
    exact ⟨_, rfl, .of_kind rfl rfl⟩
  · rename_i hTool
    rw [hSources] at h
    cases hGiven : s.sourcesOf config with
    | none =>
        rw [hGiven] at h
        cases h
        exact ⟨_, rfl, .of_kind rfl rfl⟩
    | some sources =>
        obtain ⟨main, hMain⟩ : ∃ main, s.scopes.blocks.getLast? = some main := by
          apply Option.isSome_iff_exists.mp
          simpa [Scopes.depth, List.length_pos_iff] using hDepth
        obtain ⟨words, hWords⟩ := (hBacked sources).exists_holds
        have hSet : (s.recipe selections sources).tool ≠ [] := by simpa [recipe] using hTool
        have hPlan := hWords.generate_eq_ok hSet hMain
        rw [recipe, hMain] at hPlan
        rw [hGiven] at h
        dsimp only at h
        rw [Scopes.main_eq_ok_iff.mpr hMain] at h
        dsimp only at h
        rw [hPlan] at h
        cases h

/-- An end of the script that is due fails only for what the user wrote. That every selected label
has a block excludes the one contract that making the plan could break. -/
theorem endScript_some (hSound : s.Sound) (hAdmits : s.Admits .endScript)
    (h : endScript config s pos = (s', some f)) : ∃ d, f = .diagnostic d ∧ d.IsUserError := by
  obtain ⟨hDone, hDepth, hCases⟩ := hAdmits
  have hViolation : s.endViolation? = none := by simp [endViolation?, hDone, hDepth, hCases]
  obtain ⟨-, hApplied⟩ := Resolver.applyDirectives_spec config.directives s.toResolver
  rw [endScript, hViolation] at h
  dsimp only at h
  split at h
  · rename_i hApply
    cases h
    exact ⟨_, rfl, Resolver.applyDirectives_error hApply⟩
  · rename_i r hApply
    rw [hApply] at hApplied
    obtain ⟨-, hResolved, hSelections⟩ := Resolver.resolve_spec r s.choiceCaseOccurred pos
    split at h
    · rename_i hResolve
      cases h
      exact ⟨_, rfl, Resolver.resolve_error hResolve⟩
    · rename_i r' selections hResolve
      rw [hResolve] at hResolved hSelections
      obtain rfl : selections = r'.selections := hSelections _ rfl
      refine makePlan_some (by rw [hDepth]; exact Nat.one_pos) (fun sources => ?_) h
      exact recipe_backed (hResolved (hApplied hSound.resolver)) sources

/-- An admitted event never breaks a contract: if it is refused, the script is at fault. -/
theorem take_some {e : Event} (hSound : s.Sound) (hAdmits : s.Admits e)
    (h : s.take config e pos = (s', some f)) : ∃ d, f = .diagnostic d ∧ d.IsUserError := by
  cases e with
  | beginScript => exact absurd hAdmits (beginScript_eq_some h).2.2
  | setTool name =>
      obtain ⟨-, d, rfl, hError⟩ := setTool_eq_some h
      exact ⟨d, rfl, hError.isUserError rfl⟩
  | addSource name =>
      obtain ⟨diary, hSource⟩ := addSource_eq s name pos
      cases hSource.symm.trans h
  | addSwitch switch => exact absurd (addSwitch_eq_some h).2.2 (Nat.pos_iff_ne_zero.mp hAdmits)
  | declare kind name =>
      obtain ⟨-, d, rfl, hError⟩ := declare_eq_some h
      exact ⟨d, rfl, hError.isUserError rfl⟩
  | addLabel kind name label =>
      obtain ⟨-, ⟨-, hNone⟩ | ⟨d, rfl, hError | hError⟩⟩ := addLabel_eq_some h
      · exact absurd hAdmits hNone
      · exact ⟨d, rfl, hError.isUserError rfl⟩
      · exact ⟨d, rfl, hError.isUserError rfl⟩
  | setDefault kind name label =>
      obtain ⟨-, ⟨-, hNone⟩ | ⟨a, d, -, -, rfl, hRejects⟩⟩ := setDefault_eq_some h
      · exact absurd hAdmits hNone
      · exact ⟨d, rfl, hRejects.isUserError rfl⟩
  | beginCase subject =>
      obtain ⟨-, d, rfl, -, hRejects⟩ := beginCase_eq_some h
      exact ⟨d, rfl, hRejects.isUserError rfl⟩
  | beginAlternative =>
      obtain ⟨c, cs, hCases, hClosed, hOpen⟩ := hAdmits
      have hShut := (beginAlternative_eq_some h).2.2 c cs hCases
      simp [hClosed, hOpen] at hShut
  | addAlternativeLabel label =>
      obtain ⟨c, cs, hCases, hOpen⟩ := hAdmits
      obtain ⟨-, ⟨-, hShut⟩ | ⟨c', cs', d, -, rfl, ⟨-, hRejects⟩ | hError⟩⟩ :=
        addAlternativeLabel_eq_some h
      · exact absurd ((hShut c cs hCases).symm.trans hOpen) Bool.false_ne_true
      · exact ⟨d, rfl, hRejects.isUserError rfl⟩
      · exact ⟨d, rfl, hError.isUserError rfl⟩
  | endAlternative => exact absurd h (endAlternative_ne_some hAdmits)
  | endCase =>
      obtain ⟨c, cs, hCases, hClosed, hOpen⟩ := hAdmits
      rcases endCase_eq_some h with ⟨-, -, hShut⟩ | ⟨c', cs', -, -, -, -, rfl, -⟩
      · have hShut := hShut c cs hCases
        simp [hClosed, hOpen] at hShut
      · exact ⟨_, rfl, .of_kind rfl rfl⟩
  | select choice label =>
      obtain ⟨-, d, rfl, hRefuses⟩ := select_eq_some h
      exact ⟨d, rfl, hRefuses.isUserError⟩
  | endScript => exact endScript_some hSound hAdmits h

end State

end Runsheet
