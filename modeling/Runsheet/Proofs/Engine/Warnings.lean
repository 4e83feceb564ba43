import Runsheet.Proofs.Engine.Objection

/-! The warnings of a run. Taking an event adds warnings at its place only; at the end of a script those
of the directives come first, without a place, and nothing else warns. -/
namespace Runsheet

/-- Warnings are added behind those there are, all of them at one place. -/
def Diary.WarnsAt (pos : Pos) (before after : Diary) : Prop :=
  ∃ ws, after.warnings = before.warnings ++ ws ∧ ∀ w ∈ ws, w.pos = pos

namespace Diary

variable {pos : Pos} {d d₁ d₂ : Diary}

theorem WarnsAt.of_eq (h : d₁.warnings = d.warnings) : WarnsAt pos d d₁ :=
  ⟨[], by rw [h, List.append_nil], nofun⟩

theorem WarnsAt.refl (pos : Pos) (d : Diary) : WarnsAt pos d d := .of_eq rfl

/-- Warnings of two parts come one after the other, all at the same place. -/
theorem WarnsAt.trans (h : WarnsAt pos d d₁) (h' : WarnsAt pos d₁ d₂) : WarnsAt pos d d₂ := by
  obtain ⟨ws, hFirst, hws⟩ := h
  obtain ⟨vs, hSecond, hvs⟩ := h'
  refine ⟨ws ++ vs, by rw [hSecond, hFirst, List.append_assoc], ?_⟩
  intro w hw
  rcases List.mem_append.mp hw with hw | hw
  · exact hws w hw
  · exact hvs w hw

theorem warnsAt_warn {w : Diagnostic} (r : Resolver) (h : w.pos = pos) :
    WarnsAt pos r.toDiary (r.warn w).toDiary :=
  ⟨[w], rfl, fun _ hw => by rwa [List.mem_singleton.mp hw]⟩

end Diary

namespace Resolver

open Diary

variable {r r' : Resolver} {choice label : Text} {pos : Pos}

/-- A label that is selected already is warned of at the place of the request; selecting another one
is silent. -/
theorem warnsAt_pick (choice : Text) (state : SelectionState) (pos : Pos) (r : Resolver)
    (label : Text) : WarnsAt pos r.toDiary (pick choice state pos r label).toDiary := by
  rw [pick]
  split
  · exact warnsAt_warn r rfl
  · exact .of_eq rfl

/-- A request for several labels may warn of each, always at the place of the request. -/
theorem warnsAt_foldl_pick (choice : Text) (state : SelectionState) (pos : Pos) (labels : List Text)
    (r : Resolver) : WarnsAt pos r.toDiary (labels.foldl (pick choice state pos) r).toDiary := by
  induction labels generalizing r with
  | nil => exact .refl pos _
  | cons label labels ih => exact (warnsAt_pick choice state pos r label).trans (ih _)

/-- A refused request warns of nothing, since the labels are expanded before the first is picked. -/
theorem warnsAt_select (r : Resolver) (a : Axis) (label : Text) (state : SelectionState) (pos : Pos) :
    WarnsAt pos r.toDiary (r.select a label state pos).1.toDiary := by
  rw [select]
  split
  · exact .refl pos _
  · exact warnsAt_foldl_pick a.name state pos _ _

/-- A select statement that a directive overrides is warned of at its own place, where it stands in
the script. -/
theorem warnsAt_selectInScript (r : Resolver) (directives : List Directive) (choice label : Text)
    (pos : Pos) : WarnsAt pos r.toDiary (r.selectInScript directives choice label pos).1.toDiary := by
  rw [selectInScript]
  split
  · exact .refl pos _
  · split
    · exact warnsAt_warn r rfl
    · exact warnsAt_select r _ label _ pos

/-- A directive warns without a place. -/
theorem warnsAt_applyDirective (r : Resolver) (directive : Directive) :
    WarnsAt .none r.toDiary (r.applyDirective directive).1.toDiary := by
  rw [applyDirective]
  split
  · exact .refl _ _
  · rename_i a _
    have hSelect := warnsAt_select r a directive.label .suppliedByOption .none
    split
    · rename_i r' d hRefused
      rwa [hRefused] at hSelect
    · rename_i r' hSelected
      rw [hSelected] at hSelect
      split
      · exact hSelect
      · exact hSelect.trans (warnsAt_warn r' rfl)

/-- Warnings of the directives before a refused one stay, like their selections. -/
theorem warnsAt_applyDirectives (directives : List Directive) (r : Resolver) :
    WarnsAt .none r.toDiary (r.applyDirectives directives).1.toDiary := by
  induction directives generalizing r with
  | nil => exact .refl _ _
  | cons directive directives ih =>
      have hFirst := warnsAt_applyDirective r directive
      rw [applyDirectives]
      split
      · rename_i r' d hRefused
        rwa [hRefused] at hFirst
      · rename_i r' hDone
        rw [hDone] at hFirst
        exact hFirst.trans (ih r')

/-- A directive is refused without a place. -/
theorem pos_of_applyDirectives {directives : List Directive} {d : Diagnostic}
    (h : r.applyDirectives directives = (r', some d)) : d.pos = .none := by
  obtain ⟨directive, -, r₁, ⟨-, hRejects⟩ | ⟨a, -, -, hRejects⟩⟩ := applyDirectives_refuses h
  · exact hRejects.pos_eq
  · exact hRejects.pos_eq

/-- The final selections are found without a warning. -/
theorem warnings_resolve (r : Resolver) (occurred : Bool) (pos : Pos) :
    (r.resolve occurred pos).1.warnings = r.warnings := by
  rw [resolve]
  split
  · rfl
  split
  · rfl
  · split <;> rfl
  · split <;> rfl

end Resolver

namespace State

open Diary

variable {config : Config} {s s' : State} {e : Event} {pos : Pos}

@[simp] theorem warnings_note (s : State) (concern : Concern) (message : String)
    (fields : List (String × LogValue)) : (s.note concern message fields).warnings = s.warnings :=
  rfl

/-- The registries are apart from the diary. -/
@[simp] theorem warnings_setRegistry (s : State) (kind : AxisKind) (r : Registry) :
    (s.setRegistry kind r).warnings = s.warnings := by
  cases kind <;> rfl

section events

theorem warnings_beginScript (s : State) : s.beginScript.1.warnings = s.warnings := by
  rw [beginScript]
  split <;> rfl

/-- A tool that is not known is warned of where it is named. -/
theorem warnsAt_setTool (config : Config) (s : State) (name : Text) (pos : Pos) :
    WarnsAt pos s.toDiary (setTool config s name pos).1.toDiary := by
  rw [setTool]
  split
  · exact .refl pos _
  · split
    · exact .of_eq rfl
    · exact warnsAt_warn s.toResolver rfl

/-- A source that was given before is warned of where it is given again. -/
theorem warnsAt_addSource (s : State) (name : Text) (pos : Pos) :
    WarnsAt pos s.toDiary (s.addSource name pos).1.toDiary := by
  rw [addSource]
  split
  · exact warnsAt_warn s.toResolver rfl
  · exact .of_eq rfl

theorem warnings_addSwitch (s : State) (switch : Switch) :
    (s.addSwitch switch).1.warnings = s.warnings := by
  rw [addSwitch]
  split <;> rfl

theorem warnings_declare (s : State) (kind : AxisKind) (name : Text) (pos : Pos) :
    (s.declare kind name pos).1.warnings = s.warnings := by
  rw [declare]
  split
  · rfl
  · split <;> simp

theorem warnings_addLabel (s : State) (kind : AxisKind) (name label : Text) (pos : Pos) :
    (s.addLabel kind name label pos).1.warnings = s.warnings := by
  rw [addLabel]
  split <;> simp

theorem warnings_setDefault (s : State) (kind : AxisKind) (name label : Text) (pos : Pos) :
    (s.setDefault kind name label pos).1.warnings = s.warnings := by
  rw [setDefault]
  split <;> simp

theorem warnings_beginCase (s : State) (subject : Text) (pos : Pos) :
    (s.beginCase subject pos).1.warnings = s.warnings := by
  rw [beginCase]
  split
  · rfl
  · simp

theorem warnings_beginAlternative (s : State) : s.beginAlternative.1.warnings = s.warnings := by
  rw [beginAlternative]
  split
  · rfl
  · split <;> rfl

theorem warnings_addAlternativeLabel (s : State) (label : Text) (pos : Pos) :
    (s.addAlternativeLabel label pos).1.warnings = s.warnings := by
  rw [addAlternativeLabel]
  split
  · rfl
  · split <;> rfl

/-- Closing an alternative warns of nothing, also when it fails half way. -/
theorem warnings_endAlternative (s : State) : s.endAlternative.1.warnings = s.warnings := by
  rw [endAlternative]
  split
  · rfl
  split
  · rfl
  dsimp only
  split
  · rfl
  · split <;> simp [setCurrentCase]

/-- Labels that are missing are an error and not a warning. -/
theorem warnings_endCase (s : State) (pos : Pos) : (s.endCase pos).1.warnings = s.warnings := by
  rw [endCase]
  split
  · rfl
  · split <;> rfl

/-- The engine adds nothing to what the resolver warns of. -/
theorem warnsAt_select (config : Config) (s : State) (choice label : Text) (pos : Pos) :
    WarnsAt pos s.toDiary (select config s choice label pos).1.toDiary := by
  have hSelect := s.toResolver.warnsAt_selectInScript config.directives choice label pos
  rw [select]
  split
  · rename_i r d hRefused
    rwa [hRefused] at hSelect
  · rename_i r hSelected
    rwa [hSelected] at hSelect

end events

/-- An event of the script, taken or refused, adds warnings at its place only. -/
theorem warnsAt_take (config : Config) (s : State) (pos : Pos) (hEvent : e ≠ .endScript) :
    WarnsAt pos s.toDiary (s.take config e pos).1.toDiary := by
  cases e with
  | beginScript => exact .of_eq s.warnings_beginScript
  | setTool name => exact warnsAt_setTool config s name pos
  | addSource name => exact warnsAt_addSource s name pos
  | addSwitch switch => exact .of_eq (s.warnings_addSwitch switch)
  | declare kind name => exact .of_eq (s.warnings_declare kind name pos)
  | addLabel kind name label => exact .of_eq (s.warnings_addLabel kind name label pos)
  | setDefault kind name label => exact .of_eq (s.warnings_setDefault kind name label pos)
  | beginCase subject => exact .of_eq (s.warnings_beginCase subject pos)
  | beginAlternative => exact .of_eq s.warnings_beginAlternative
  | addAlternativeLabel label => exact .of_eq (s.warnings_addAlternativeLabel label pos)
  | endAlternative => exact .of_eq s.warnings_endAlternative
  | endCase => exact .of_eq (s.warnings_endCase pos)
  | select choice label => exact warnsAt_select config s choice label pos
  | endScript => exact absurd rfl hEvent

section ending

/-- Sources of the script that are overridden are noted in the journal without a warning. -/
theorem warnings_resolveSources (config : Config) (s : State) :
    (s.resolveSources config).1.warnings = s.warnings := by
  rw [resolveSources]
  split
  · split <;> rfl
  · split
    · rfl
    · split <;> rfl

/-- Making the plan warns of nothing, and what it wants is told at the end of the script. -/
theorem makePlan_quiet (config : Config) (s : State) (selections : List Selection) (pos : Pos) :
    (makePlan config s selections pos).1.warnings = s.warnings ∧
      ∀ d, (makePlan config s selections pos).2 = some (.diagnostic d) → d.pos = pos := by
  have hSources := warnings_resolveSources config s
  rw [makePlan]
  split
  · exact ⟨rfl, fun d hd => by cases hd; rfl⟩
  · split
    · rename_i s₁ hNone
      rw [hNone] at hSources
      exact ⟨hSources, fun d hd => by cases hd; rfl⟩
    · rename_i s₁ sources hSome
      rw [hSome] at hSources
      dsimp only
      split
      · exact ⟨hSources, fun d hd => by cases hd⟩
      · split
        · exact ⟨hSources, fun d hd => by cases hd⟩
        · exact ⟨hSources, fun d hd => by cases hd⟩

/-- The end of a script that is admitted: either the directives are refused, and nothing else is done,
or they are applied and nothing else warns. -/
theorem endScript_told (config : Config) (pos : Pos) (hAdmitted : s.endViolation? = none) :
    (∃ d, (s.toResolver.applyDirectives config.directives).2 = some d ∧
      (endScript config s pos).1.warnings =
        (s.toResolver.applyDirectives config.directives).1.warnings ∧
      (endScript config s pos).2 = some (.diagnostic d)) ∨
    ((s.toResolver.applyDirectives config.directives).2 = none ∧
      (endScript config s pos).1.warnings =
        (s.toResolver.applyDirectives config.directives).1.warnings ∧
      ∀ d, (endScript config s pos).2 = some (.diagnostic d) → d.pos = pos) := by
  rw [endScript, hAdmitted]
  dsimp only
  split
  · rename_i r d hRefused
    rw [hRefused]
    exact Or.inl ⟨d, rfl, rfl, rfl⟩
  · rename_i r hApplied
    have hQuiet := r.warnings_resolve s.choiceCaseOccurred pos
    rw [hApplied]
    refine Or.inr ⟨rfl, ?_⟩
    split
    · rename_i r' d hResolve
      rw [hResolve] at hQuiet
      refine ⟨hQuiet, fun d' hd => ?_⟩
      cases hd
      exact (Resolver.resolve_refuses hResolve).2.1
    · rename_i r' selections hResolve
      rw [hResolve] at hQuiet
      obtain ⟨hPlan, hWanting⟩ :=
        makePlan_quiet config { s with done := true, toResolver := r' } selections pos
      exact ⟨hPlan.trans hQuiet, hWanting⟩

end ending

end State

end Runsheet
