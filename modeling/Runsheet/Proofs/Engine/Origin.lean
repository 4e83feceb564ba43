import Runsheet.Proofs.Engine.Reading
import Runsheet.Proofs.Engine.Warnings
import Runsheet.Proofs.Script.Pointing
import Runsheet.Proofs.Token.Line

/-! Where the diagnostics of a run point to. Each is raised by an event of the script and stands at the
token of that event, or by a directive of the command line and stands nowhere. -/
namespace Runsheet

/-- What raises a diagnostic. -/
inductive Origin
  | script
  | directive
  deriving DecidableEq, Repr

/-- The diagnostic of a run that was stopped. An error in the syntax is not one. -/
def Stop.diagnostic? : Stop Diagnostic → Option Diagnostic
  | .refused d => some d
  | .unreadable _ => none

/-- What is told on the way from one diary to another: the warnings that are new, then the refusal. -/
def Diary.told (before after : Diary) (refusal : Option Diagnostic) : List Diagnostic :=
  after.warnings.drop before.warnings.length ++ refusal.toList

/-- What is told is read off the two diaries: warnings are only ever added at the end. -/
theorem Diary.told_of_append {before after : Diary} {ws : List Diagnostic}
    (h : after.warnings = before.warnings ++ ws) (refusal : Option Diagnostic) :
    told before after refusal = ws ++ refusal.toList := by
  rw [told, h, List.drop_left]

namespace State

/-- What the directives tell when an event is taken: an end of the script that is admitted applies
them before all else. -/
def toldByDirectives (config : Config) (s : State) (e : Event) : List Diagnostic :=
  if e = .endScript ∧ s.endViolation? = none then
    Diary.told s.toDiary (s.toResolver.applyDirectives config.directives).1.toDiary
      (s.toResolver.applyDirectives config.directives).2
  else []

/-- The diagnostics of an event, each with its origin. -/
def raised (config : Config) (s : State) (e : Event) (pos : Pos) : List (Origin × Diagnostic) :=
  let all := Diary.told s.toDiary (s.step config e pos).1.toDiary (s.step config e pos).2
  let byDirectives := s.toldByDirectives config e
  byDirectives.map (.directive, ·) ++ (all.drop byDirectives.length).map (.script, ·)

/-- The diagnostics of a run over some reports, each with its origin. -/
def account (config : Config) : State → List Emission → List (Origin × Diagnostic)
  | _, [] => []
  | s, .note record :: rest => account config (s.receive config (.note record)).1 rest
  | s, .event e pos :: rest =>
    s.raised config e pos ++
      if (s.step config e pos).2 = none then account config (s.step config e pos).1 rest else []

/-- A diagnostic of the script stands at the place of its event, one of a directive stands nowhere. -/
def StandsAt (pos : Pos) : Origin × Diagnostic → Prop
  | (.script, d) => d.pos = pos
  | (.directive, d) => d.pos = .none

variable {config : Config} {s s' : State} {e : Event} {pos : Pos}

section step

/-- The refusal of an admitted event is a diagnostic, never a broken contract. -/
theorem take_of_step {d : Diagnostic} (hSound : s.Sound) (hAdmits : s.Admits e) (h : (s.step config e pos).2 = some d) :
    (s.take config e pos).2 = some (.diagnostic d) := by
  obtain ⟨f, hTake, rfl⟩ := Option.map_eq_some_iff.mp h
  obtain ⟨d, rfl, -⟩ := take_some hSound hAdmits (Prod.ext rfl hTake)
  exact hTake

theorem endViolation?_of_admits (hAdmits : s.Admits .endScript) : s.endViolation? = none := by
  obtain ⟨hDone, hDepth, hCases⟩ := hAdmits
  simp [endViolation?, hDone, hDepth, hCases]

/-- What an event tells is what is accounted for, and each thing stands at its place. -/
def Accounted (config : Config) (s : State) (e : Event) (pos : Pos) : Prop :=
  ∃ ws, (s.step config e pos).1.warnings = s.warnings ++ ws ∧
    (s.raised config e pos).map Prod.snd = ws ++ (s.step config e pos).2.toList ∧
    ∀ x ∈ s.raised config e pos, StandsAt pos x

/-- The directives are applied before all else at the end of a script, so that what they tell is the
front of what is told there. -/
theorem raised_eq {ws : List Diagnostic} (hWarnings : (s.step config e pos).1.warnings = s.warnings ++ ws) :
    s.raised config e pos = (s.toldByDirectives config e).map (.directive, ·) ++
      ((ws ++ (s.step config e pos).2.toList).drop (s.toldByDirectives config e).length).map
        (.script, ·) := by
  rw [raised, Diary.told_of_append hWarnings]

/-- Up to the end of the script, warnings and refusals alike stand at the place of the event that
raised them. -/
theorem accounted_of_ne (config : Config) (pos : Pos) (hSound : s.Sound) (hAdmits : s.Admits e)
    (hEvent : e ≠ .endScript) :
    Accounted config s e pos := by
  obtain ⟨ws, hWarnings, hws⟩ := warnsAt_take config s pos hEvent
  have hNone : s.toldByDirectives config e = [] := if_neg fun h => hEvent h.1
  have hRaised : s.raised config e pos =
      (ws ++ (s.step config e pos).2.toList).map (.script, ·) := by
    rw [raised_eq hWarnings, hNone]
    rfl
  refine ⟨ws, hWarnings, by simp [hRaised, Function.comp_def], ?_⟩
  intro x hx
  rw [hRaised] at hx
  obtain ⟨d, hd, rfl⟩ := List.mem_map.mp hx
  rcases List.mem_append.mp hd with hd | hd
  · exact hws d hd
  · have hTake := take_of_step hSound hAdmits (Option.mem_toList.mp hd)
    exact (objection_of_take hSound hEvent (Prod.ext rfl hTake)).pos_eq

/-- At the end of a script what the directives tell comes first, and when one of them is refused it is
all that is told. -/
theorem accounted_endScript (config : Config) (pos : Pos) (hSound : s.Sound)
    (hAdmits : s.Admits .endScript) :
    Accounted config s .endScript pos := by
  have hViolation := endViolation?_of_admits hAdmits
  obtain ⟨ws, hApplied, hws⟩ := Resolver.warnsAt_applyDirectives config.directives s.toResolver
  have hTold : s.toldByDirectives config .endScript =
      ws ++ (s.toResolver.applyDirectives config.directives).2.toList := by
    rw [toldByDirectives, if_pos ⟨rfl, hViolation⟩, Diary.told_of_append hApplied]
  rcases endScript_told config pos hViolation with ⟨d, hDirective, hWarnings, hEnd⟩ |
    ⟨hDirective, hWarnings, hEnd⟩
  · have hAll : (s.step config .endScript pos).1.warnings = s.warnings ++ ws :=
      hWarnings.trans hApplied
    have hRefusal : (s.step config .endScript pos).2 = some d :=
      congrArg (Option.map Failure.toDiagnostic) hEnd
    have hRaised : s.raised config .endScript pos = (ws ++ [d]).map (.directive, ·) := by
      rw [raised_eq hAll, hTold, hDirective, hRefusal]
      simp
    refine ⟨ws, hAll, by simp [hRaised, hRefusal, Function.comp_def], ?_⟩
    intro x hx
    rw [hRaised] at hx
    obtain ⟨d', hd, rfl⟩ := List.mem_map.mp hx
    rcases List.mem_append.mp hd with hd | hd
    · exact hws d' hd
    · rw [List.mem_singleton.mp hd]
      exact Resolver.pos_of_applyDirectives (Prod.ext rfl hDirective)
  · have hAll : (s.step config .endScript pos).1.warnings = s.warnings ++ ws :=
      hWarnings.trans hApplied
    have hRaised : s.raised config .endScript pos = ws.map (.directive, ·) ++
        (s.step config .endScript pos).2.toList.map (.script, ·) := by
      rw [raised_eq hAll, hTold, hDirective]
      simp
    refine ⟨ws, hAll, by simp [hRaised, Function.comp_def], ?_⟩
    intro x hx
    rw [hRaised] at hx
    rcases List.mem_append.mp hx with hx | hx
    · obtain ⟨d, hd, rfl⟩ := List.mem_map.mp hx
      exact hws d hd
    · obtain ⟨d, hd, rfl⟩ := List.mem_map.mp hx
      exact hEnd d (take_of_step hSound hAdmits (Option.mem_toList.mp hd))

/-- Every event that is admitted is accounted for. -/
theorem accounted_of_admits (config : Config) (pos : Pos) (hSound : s.Sound) (hAdmits : s.Admits e) :
    Accounted config s e pos := by
  by_cases hEvent : e = .endScript
  · subst hEvent
    exact accounted_endScript config pos hSound hAdmits
  · exact accounted_of_ne config pos hSound hAdmits hEvent

end step

/-- A run over events that are admitted: what it tells is what is accounted for, each thing at the
place of one of the events or nowhere. -/
theorem account_spec (config : Config) {emitted : List Emission} (hSound : s.Sound)
    (h : Honours config s emitted) :
    ∃ ws, (handOn (receive config) s emitted).1.warnings = s.warnings ++ ws ∧
      (account config s emitted).map Prod.snd =
        ws ++ (handOn (receive config) s emitted).2.toList ∧
      ∀ x ∈ account config s emitted, ∃ e pos, .event e pos ∈ emitted ∧ StandsAt pos x := by
  induction emitted generalizing s with
  | nil => exact ⟨[], (List.append_nil _).symm, rfl, nofun⟩
  | cons emission emitted ih =>
      cases emission with
      | note record =>
          have hNoted : (s.receive config (.note record)).1.Sound := hSound.congr rfl rfl rfl rfl
          obtain ⟨ws, hWarnings, hTold, hPlaces⟩ := ih hNoted h
          refine ⟨ws, hWarnings, hTold, fun x hx => ?_⟩
          obtain ⟨e, pos, hEvent, hStands⟩ := hPlaces x hx
          exact ⟨e, pos, List.mem_cons_of_mem _ hEvent, hStands⟩
      | event e pos =>
          obtain ⟨hAdmits, hRest⟩ := h
          obtain ⟨ws, hWarnings, hTold, hPlaces⟩ := accounted_of_admits config pos hSound hAdmits
          have hHere : ∀ x ∈ s.raised config e pos,
              ∃ e' pos', .event e' pos' ∈ Emission.event e pos :: emitted ∧ StandsAt pos' x :=
            fun x hx => ⟨e, pos, List.mem_cons_self, hPlaces x hx⟩
          rw [account, handOn, receive]
          cases hRefusal : (s.step config e pos).2 with
          | some d =>
              have hStep : s.step config e pos = ((s.step config e pos).1, some d) :=
                Prod.ext rfl hRefusal
              rw [hStep]
              rw [hRefusal] at hTold
              refine ⟨ws, hWarnings, by simpa using hTold, by simpa using hHere⟩
          | none =>
              have hStep : s.step config e pos = ((s.step config e pos).1, none) :=
                Prod.ext rfl hRefusal
              have hTake : s.take config e pos = ((s.step config e pos).1, none) :=
                Prod.ext rfl (step_snd_eq_none_iff.mp hRefusal)
              obtain ⟨vs, hMore, hMoreTold, hMorePlaces⟩ := ih (hSound.take hTake) (hRest _ hTake)
              rw [hRefusal, Option.toList_none, List.append_nil] at hTold
              rw [hStep]
              dsimp only
              rw [if_pos rfl]
              refine ⟨ws ++ vs, by rw [hMore, hWarnings, List.append_assoc], ?_, ?_⟩
              · rw [List.map_append, hTold, hMoreTold, List.append_assoc]
              · intro x hx
                rcases List.mem_append.mp hx with hx | hx
                · exact hHere x hx
                · obtain ⟨e', pos', hEvent, hStands⟩ := hMorePlaces x hx
                  exact ⟨e', pos', List.mem_cons_of_mem _ hEvent, hStands⟩

end State

/-- Lines are counted from one, so that a token is somewhere. -/
theorem Token.pos_ne_none {source : Text} {t : Token} (ht : t ∈ (Tokens.ofSource source).toList) :
    t.pos ≠ .none := by
  intro hNone
  have hLine : (t.position.line : Int) = 0 := congrArg Pos.line hNone
  rw [Tokens.line_of_mem ht] at hLine
  omega

/-- Every diagnostic of a run of a new engine points into the script, at one of its tokens, unless it
was raised by the directives of the command line. -/
theorem diagnostics_pointed (config : Config) (source : Text) :
    (State.account config {} (Parse.ofSource source).emitted).map Prod.snd =
        (runScript config {} source).1.warnings ++
          ((runScript config {} source).2.bind Stop.diagnostic?).toList ∧
      ∀ origin d, (origin, d) ∈ State.account config {} (Parse.ofSource source).emitted →
        (d.pos = .none ∨ d.pos.IsOf (Tokens.ofSource source).toList) ∧
          (d.pos = .none ↔ origin = .directive) := by
  obtain ⟨ws, hWarnings, hTold, hPlaces⟩ :=
    State.account_spec config State.sound_empty (runScript_keeps_contract config source).1
  refine ⟨?_, fun origin d hEntry => ?_⟩
  · rw [hTold, runScript, Parse.drive_eq, ← Parse.ofSource]
    cases hRun : handOn (State.receive config) {} (Parse.ofSource source).emitted with
    | mk s refusal =>
        rw [hRun] at hWarnings
        have hSame : s.warnings = ws := hWarnings
        cases refusal with
        | some d => rw [← hSame]; rfl
        | none =>
            rw [← hSame]
            cases (Parse.ofSource source).failure <;> rfl
  · obtain ⟨e, pos, hEvent, hStands⟩ := hPlaces _ hEntry
    obtain ⟨t, ht, rfl⟩ := Parse.isOf_of_mem_ofSource hEvent
    cases origin with
    | script =>
        have hPos : d.pos = t.pos := hStands
        rw [hPos]
        exact ⟨Or.inr ⟨t, ht, rfl⟩, fun hNone => absurd hNone (Token.pos_ne_none ht),
          fun hOther => by cases hOther⟩
    | directive =>
        have hPos : d.pos = .none := hStands
        exact ⟨Or.inl hPos, fun _ => rfl, fun _ => hPos⟩

end Runsheet
