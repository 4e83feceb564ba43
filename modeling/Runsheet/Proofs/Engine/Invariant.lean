import Runsheet.Proofs.Engine.Calls

/-! The invariant of the engine, over every order of calls once the script has begun: open blocks go
with open alternatives, names and labels are declared once, and case statements and selections are
over declared labels. -/
namespace Runsheet

/-- Labels are declared once and none of them stands for all, each of them and nothing else has a
block, and a default is one of them. -/
structure Axis.WellFormed (a : Axis) : Prop where
  labels_nodup : a.labels.Nodup
  not_reserved : ∀ l ∈ a.labels, isAllLabels l = false
  blocks : ∀ l, (a.block? l).isSome = true ↔ l ∈ a.labels
  default : ∀ l, a.defaultLabel? = some l → l ∈ a.labels

/-- A sound axis is well-formed in every point: this is where blocks and labels, kept apart in the
axis, are brought together. -/
theorem Axis.Sound.wellFormed {a : Axis} (h : a.Sound) : a.WellFormed where
  labels_nodup := h.labels_nodup
  not_reserved := h.not_reserved
  blocks := h.block?_isSome_iff
  default := by
    intro l hl
    rw [defaultLabel?] at hl
    split at hl
    · cases hl
    · rename_i hFilled
      cases hl
      exact h.default_mem.resolve_left (by simpa using hFilled)

namespace State

variable {config : Config} {s s' : State} {e : Event} {pos : Pos}

/-- The main block is open, and one more for every open alternative. -/
def Balanced (s : State) : Prop := s.scopes.depth = 1 + s.cases.countP (·.inAlternative)

namespace Balanced

/-- The balance depends on two numbers only, those of the open blocks and of the open alternatives.
-/
theorem congr (h : s.Balanced) (hScopes : s'.scopes.depth = s.scopes.depth)
    (hCases : s'.cases.countP (·.inAlternative) = s.cases.countP (·.inAlternative)) :
    s'.Balanced := by
  rw [Balanced, hScopes, hCases]
  exact h

/-- An alternative and its block are closed together. -/
theorem closeAlternative {c : CaseCheck} {cs : List CaseCheck} {b b' : Block} {bs : List Block}
    (h : s.Balanced) (hCases : s.cases = c :: cs) (hOpen : c.inAlternative = true)
    (hBlocks : s.scopes.blocks = b :: b' :: bs) (hScopes : s'.scopes = ⟨b' :: bs⟩)
    (hCases' : s'.cases = { c with inAlternative := false } :: cs) : s'.Balanced := by
  rw [Balanced, hCases, Scopes.depth, hBlocks, List.countP_cons, if_pos hOpen] at h
  rw [Balanced, hCases', hScopes, Scopes.depth, List.countP_cons, if_neg Bool.false_ne_true]
  simp only [List.length_cons] at h ⊢
  omega

/-- Every event that is taken keeps blocks and alternatives in step. -/
theorem take (h : s.Balanced) (hTake : s.take config e pos = (s', none)) : s'.Balanced := by
  cases e with
  | beginScript =>
      -- The main block is open already, so the script cannot begin again.
      obtain ⟨hDepth, -⟩ := beginScript_eq_none hTake
      rw [Balanced] at h
      omega
  | setTool name =>
      obtain ⟨-, diary, rfl⟩ := setTool_eq_none hTake
      exact h
  | addSource name =>
      obtain ⟨diary, hSource⟩ := addSource_eq s name pos
      cases hSource.symm.trans hTake
      exact h
  | addSwitch switch =>
      obtain ⟨b, bs, diary, hBlocks, rfl⟩ := addSwitch_eq_none hTake
      exact h.congr (by simp [Scopes.depth, hBlocks]) rfl
  | declare kind name =>
      obtain ⟨-, -, diary, rfl⟩ := declare_eq_none hTake
      cases kind <;> exact h
  | addLabel kind name label =>
      obtain ⟨a, diary, -, -, -, rfl⟩ := addLabel_eq_none hTake
      cases kind <;> exact h
  | setDefault kind name label =>
      obtain ⟨a, diary, -, -, rfl⟩ := setDefault_eq_none hTake
      cases kind <;> exact h
  | beginCase subject =>
      obtain ⟨a, diary, -, rfl⟩ := beginCase_eq_none hTake
      refine h.congr ?_ ?_
      · cases a.kind <;> rfl
      · simp [CaseCheck.start]
  | beginAlternative =>
      obtain ⟨c, cs, diary, hCases, -, hOpen, rfl⟩ :=
        beginAlternative_eq_none hTake
      simp only [Balanced, hCases, Scopes.depth, Scopes.push, List.countP_cons, hOpen,
        List.length_cons] at h ⊢
      simp only [Bool.false_eq_true, if_false, if_true] at h ⊢
      omega
  | addAlternativeLabel label =>
      obtain ⟨c, cs, diary, hCases, -, -, -, rfl⟩ :=
        addAlternativeLabel_eq_none hTake
      exact h.congr rfl (by simp [hCases, List.countP_cons])
  | endAlternative =>
      obtain ⟨c, cs, b, b', bs, diary, hCases, hOpen, -, hBlocks, rfl⟩ :=
        endAlternative_eq_none hTake
      exact h.closeAlternative hCases hOpen hBlocks rfl rfl
  | endCase =>
      obtain ⟨c, cs, diary, hCases, hOpen, -, -, rfl⟩ := endCase_eq_none hTake
      exact h.congr rfl (by simp [hCases, hOpen])
  | select choice label =>
      obtain ⟨r, -, rfl⟩ := select_eq_none hTake
      exact h
  | endScript =>
      obtain ⟨-, -, r, -, -, diary, -, -, -, -, rfl⟩ := endScript_eq_none hTake
      exact h

/-- So does every call that is refused. -/
theorem refused (h : s.Balanced) (hRefused : Refused s e s') : s'.Balanced := by
  cases hRefused with
  | unchanged => exact h
  | closed hCases => exact h.congr rfl (by simp [hCases, List.countP_cons])
  | withoutBlock hCases hOpen hDepth =>
      -- An open alternative has a block above the main one.
      rw [Balanced, hCases, List.countP_cons, if_pos hOpen] at h
      omega
  | withoutTarget hCases hOpen hBlocks => exact h.closeAlternative hCases hOpen hBlocks rfl rfl
  | ended => exact h

end Balanced

/-- A refused call keeps the data sound. -/
theorem Sound.refused (h : s.Sound) (hRefused : Refused s e s') : s'.Sound := by
  cases hRefused with
  | unchanged => exact h
  | @closed c cs hCases =>
      exact h.withCurrent { c with closed := true } hCases rfl rfl fun hCase =>
        ⟨hCase.used_mem, hCase.current_used, hCase.current_nodup⟩
  | @withoutBlock c cs hCases =>
      exact h.withCurrent { c with inAlternative := false } hCases rfl rfl fun hCase =>
        ⟨hCase.used_mem, hCase.current_used, hCase.current_nodup⟩
  | withoutTarget hCases _ _ hMissing =>
      exact absurd (h.absorb_eq_none (hCases ▸ List.mem_cons_self) _) hMissing
  | ended _ hSame hSound =>
      exact (h.withResolver (hSound h.resolver) hSame).congr rfl rfl rfl rfl

/-- What holds of the engine between any two calls. -/
structure WellFormed (s : State) : Prop where
  depth : s.scopes.depth = 1 + s.cases.countP (·.inAlternative)
  names_nodup : (s.choices.names ++ s.inputs.names).Nodup
  axes : ∀ kind, ∀ a ∈ (s.registry kind).axes, a.WellFormed
  cases : ∀ c ∈ s.cases, ∃ a, (s.registry c.kind).get? c.subject = some a ∧
    (∀ l ∈ c.used, l ∈ a.labels) ∧ (∀ l ∈ c.current, l ∈ c.used) ∧ c.current.Nodup
  selections_nodup : s.selections.Nodup
  selections_declared : ∀ x ∈ s.selections,
    ∃ a, s.choices.get? x.choice = some a ∧ x.label ∈ a.labels

/-- Soundness is about the data of an engine and balance about its nesting; together they are all
that well-formedness asks for. -/
theorem Balanced.wellFormed (hBalanced : s.Balanced) (h : s.Sound) : s.WellFormed where
  depth := hBalanced
  names_nodup := by
    refine List.nodup_append.mpr ⟨h.resolver.choices.names_nodup, h.inputs.names_nodup, ?_⟩
    intro name hChoice other hInput hSame
    exact h.disjoint name hChoice (hSame ▸ hInput)
  axes := fun kind a ha => ((h.registry kind).axes a ha).2.wellFormed
  cases := by
    intro c hc
    obtain ⟨a, ha, hCase⟩ := h.cases c hc
    exact ⟨a, ha, hCase.used_mem, hCase.current_used, hCase.current_nodup⟩
  selections_nodup := h.resolver.nodup
  selections_declared := fun _ hx => h.resolver.label_declared hx

/-- Every call keeps blocks and alternatives in step. -/
theorem Balanced.call (config : Config) (e : Event) (pos : Pos) (h : s.Balanced) :
    (s.take config e pos).1.Balanced := by
  cases hTake : s.take config e pos with
  | mk s' failure =>
      cases failure with
      | none => exact h.take hTake
      | some f => exact h.refused (refused_of_take hTake)

/-- Every call keeps the data sound. -/
theorem Sound.call (config : Config) (e : Event) (pos : Pos) (h : s.Sound) :
    (s.take config e pos).1.Sound := by
  cases hTake : s.take config e pos with
  | mk s' failure =>
      cases failure with
      | none => exact h.take hTake
      | some f => exact h.refused (refused_of_take hTake)

/-- The data of a new engine are sound after any calls. -/
theorem sound_after (config : Config) (calls : List Call) : (after config {} calls).Sound :=
  after_induction calls sound_empty fun _ e pos h => h.call config e pos

/-- A new engine that is told of the beginning of a script and of anything after it, in any order and
whatever is refused on the way, is well formed. -/
theorem wellFormed_after (config : Config) (pos : Pos) (calls : List Call) :
    (after config {} ((.beginScript, pos) :: calls)).WellFormed := by
  have hMain : (State.take config {} .beginScript pos).1.Balanced := rfl
  have hBalanced : (after config {} ((.beginScript, pos) :: calls)).Balanced :=
    after_induction calls hMain fun _ e pos h => h.call config e pos
  exact hBalanced.wellFormed (sound_after config _)

end State

end Runsheet
