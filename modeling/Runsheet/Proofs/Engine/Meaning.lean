import Runsheet.Proofs.Engine.Run
import Runsheet.Proofs.Script.Meaning

/-! The engine does what a script means. While a script runs, the blocks of the labels hold what the
alternatives that have ended add to them; an induction over the nesting of case statements carries
this from the first statement to the last one. -/
namespace Runsheet

namespace Registry

variable {r : Registry} {f : Axis → Axis}

/-- The axis declared last is the one that is changed. -/
theorem modify_append {a : Axis} (hNew : a.name ∉ r.names) :
    (r.append a).modify a.name f = r.append (f a) := by
  have hOld : r.axes.map (fun b => if b.name == a.name then f b else b) = r.axes := by
    conv_rhs => rw [← List.map_id r.axes]
    apply List.map_congr_left
    intro b hb
    have hName : b.name ≠ a.name := by
      intro hName
      exact hNew (hName ▸ List.mem_map_of_mem hb)
    simp [hName]
  simpa [modify, append] using hOld

end Registry

def Axis.declaration (a : Axis) : AxisDeclaration := ⟨a.name, a.labels, a.default⟩

/-- What matters of an axis for its blocks. -/
def Axis.bare (a : Axis) : Text × List Text × List Branch := (a.name, a.labels, a.branches)

/-- Whatever is read off the axes without regard to selections is the same in both registries. -/
theorem Registry.SameButSelected.map_eq {β : Type} {r r' : Registry} (h : r.SameButSelected r')
    (g : Axis → β) (hg : ∀ a, g a.unselected = g a) : r'.axes.map g = r.axes.map g := by
  have hMap (q : Registry) : q.axes.map g = (q.axes.map Axis.unselected).map g := by
    rw [List.map_map]
    apply List.map_congr_left
    intro a _
    exact (hg a).symm
  rw [hMap, hMap, h.2]

namespace State

variable {config : Config} {s s' : State} {kind : AxisKind}

/-- The two registries do not get into each other's way: replacing one leaves the other as it was.
-/
theorem registry_setRegistry_eq (s : State) (kind kind' : AxisKind) (r : Registry) :
    (s.setRegistry kind r).registry kind' = if kind' = kind then r else s.registry kind' := by
  cases kind <;> cases kind' <;> rfl

theorem registry_eq (hChoices : s'.choices = s.choices) (hInputs : s'.inputs = s.inputs)
    (kind : AxisKind) : s'.registry kind = s.registry kind := by
  cases kind with
  | choice => exact hChoices
  | input => exact hInputs

/-- In a sound engine axes of one name are one axis. -/
theorem Sound.axis_unique {kind' : AxisKind} {a b : Axis} (h : s.Sound)
    (ha : a ∈ (s.registry kind).axes) (hb : b ∈ (s.registry kind').axes) (hName : a.name = b.name) :
    kind = kind' ∧ a = b := by
  have hMem : b.name ∈ (s.registry kind').names := List.mem_map_of_mem hb
  by_cases hKind : kind = kind'
  · subst hKind
    have hNodup := (h.registry kind).names_nodup
    have hGet := Registry.get?_of_mem hNodup hb
    rw [← hName, Registry.get?_of_mem hNodup ha] at hGet
    exact ⟨rfl, Option.some.inj hGet⟩
  · have hOther : a.name ∈ (s.otherRegistry kind').names := by
      cases kind <;> cases kind' <;> first | exact absurd rfl hKind | exact List.mem_map_of_mem ha
    exact absurd (hName ▸ hOther) (h.disjoint_other hMem)

/-- The blocks of all labels hold what the alternatives that have ended add to them, and these are
over declared labels. -/
structure Blocks (s : State) (ended : List Contribution) : Prop where
  switches : ∀ kind, ∀ a ∈ (s.registry kind).axes, ∀ b ∈ a.branches,
    b.block.switches = blockOf ended a.name b.label
  declared : ∀ c ∈ ended, ∃ kind, ∃ a ∈ (s.registry kind).axes, a.name = c.subject ∧
    ∀ l ∈ c.labels, l ∈ a.labels

namespace Blocks

variable {ended : List Contribution}

/-- The invariant of the blocks looks at names, labels, defaults and blocks of the axes; marking an
axis as used or selecting its labels does not touch it. -/
theorem congr (h : s.Blocks ended)
    (hSame : ∀ kind, (s'.registry kind).axes.map Axis.bare = (s.registry kind).axes.map Axis.bare) :
    s'.Blocks ended := by
  have hMem : ∀ {t t' : State}, (∀ kind, (t'.registry kind).axes.map Axis.bare =
      (t.registry kind).axes.map Axis.bare) → ∀ kind, ∀ a ∈ (t'.registry kind).axes,
      ∃ a' ∈ (t.registry kind).axes, a'.bare = a.bare := by
    intro t t' hEq kind a ha
    have hBare : a.bare ∈ (t.registry kind).axes.map Axis.bare := by
      rw [← hEq kind]
      exact List.mem_map_of_mem ha
    exact List.mem_map.mp hBare
  constructor
  · intro kind a ha b hb
    obtain ⟨a', ha', hBare⟩ := hMem hSame kind a ha
    obtain ⟨hName, hRest⟩ := Prod.mk.inj hBare
    rw [← hName]
    exact h.switches kind a' ha' b ((Prod.mk.inj hRest).2 ▸ hb)
  · intro c hc
    obtain ⟨kind, a, ha, hName, hLabels⟩ := h.declared c hc
    obtain ⟨a', ha', hBare⟩ := hMem (fun kind => (hSame kind).symm) kind a ha
    obtain ⟨hName', hRest⟩ := Prod.mk.inj hBare
    exact ⟨kind, a', ha', hName'.trans hName, fun l hl => (Prod.mk.inj hRest).1 ▸ hLabels l hl⟩

/-- A new axis has no blocks yet. -/
theorem append {a : Axis} (h : s.Blocks ended) (kind : AxisKind) (ha : a.branches = []) :
    (s.setRegistry kind ((s.registry kind).append a)).Blocks ended := by
  constructor
  · intro kind' b hb branch hBranch
    rw [registry_setRegistry_eq] at hb
    split at hb
    · rename_i hKind
      subst hKind
      rcases List.mem_append.mp hb with hOld | hLast
      · exact h.switches kind' b hOld branch hBranch
      · rw [List.mem_singleton.mp hLast, ha] at hBranch
        cases hBranch
    · exact h.switches kind' b hb branch hBranch
  · intro c hc
    obtain ⟨kind', b, hb, hDeclared⟩ := h.declared c hc
    refine ⟨kind', b, ?_, hDeclared⟩
    rw [registry_setRegistry_eq]
    split
    · rename_i hKind
      subst hKind
      exact List.mem_append_left _ hb
    · exact hb

/-- An update that keeps names and labels keeps what is declared. -/
theorem declared_modify {f : Axis → Axis} (h : s.Blocks ended) (kind : AxisKind) (name : Text)
    (hf : ∀ a, Axis.Extends a (f a)) (c : Contribution) (hc : c ∈ ended) :
    ∃ kind', ∃ a ∈ ((s.setRegistry kind ((s.registry kind).modify name f)).registry kind').axes,
      a.name = c.subject ∧ ∀ l ∈ c.labels, l ∈ a.labels := by
  obtain ⟨kind', a, ha, hName, hLabels⟩ := h.declared c hc
  refine ⟨kind', ?_⟩
  rw [registry_setRegistry_eq]
  split
  · rename_i hKind
    subst hKind
    refine ⟨_, List.mem_map_of_mem ha, ?_⟩
    split
    · exact ⟨(hf a).name.trans hName, fun l hl => (hf a).labels l (hLabels l hl)⟩
    · exact ⟨hName, hLabels⟩
  · exact ⟨a, ha, hName, hLabels⟩

/-- A new label has an empty block, and no alternative was over it. -/
theorem addBranch {name label : Text} {a : Axis} (h : s.Blocks ended) (hSound : s.Sound)
    (ha : (s.registry kind).get? name = some a) (hLabel : label ∉ a.labels) :
    (s.setRegistry kind ((s.registry kind).modify name (·.addBranch label))).Blocks ended := by
  have hMem : a ∈ (s.registry kind).axes ∧ a.name = name := Registry.get?_eq_some ha
  have hNone : blockOf ended name label = [] := by
    rw [blockOf, List.flatMap_eq_nil_iff]
    intro c hc
    apply if_neg
    rintro ⟨hSubject, hOver⟩
    obtain ⟨kind', a', ha', hName, hLabels⟩ := h.declared c hc
    obtain ⟨_, rfl⟩ := hSound.axis_unique ha' hMem.1 (hName.trans (hSubject.trans hMem.2.symm))
    exact hLabel (hLabels label hOver)
  refine ⟨?_, h.declared_modify kind name fun a => ⟨rfl, rfl, fun l hl => ?_⟩⟩
  · intro kind' b hb branch hBranch
    rw [registry_setRegistry_eq] at hb
    split at hb
    · rename_i hKind
      subst hKind
      rcases Registry.mem_modify hb with hOld | ⟨x, hx, hName, rfl⟩
      · exact h.switches kind' b hOld branch hBranch
      · obtain ⟨-, rfl⟩ := hSound.axis_unique hx hMem.1 (hName.trans hMem.2.symm)
        have hNew : label ∉ x.blocks.labels := by
          rw [((hSound.registry kind').axes x hx).2.blocks_labels]
          exact hLabel
        have hBranches : (x.addBranch label).branches =
            x.branches ++ [⟨label, { name := x.name ++ ":" ++ label }⟩] := Shelf.branches_put hNew
        rw [hBranches] at hBranch
        rcases List.mem_append.mp hBranch with hOld | hLast
        · exact h.switches kind' x hx branch hOld
        · rw [List.mem_singleton.mp hLast, Axis.name_addBranch, hName, hNone]
    · exact h.switches kind' b hb branch hBranch
  · rw [Axis.labels_addBranch]
    exact List.mem_append_left _ hl

/-- The end of an alternative adds its block to the blocks of its labels. -/
theorem enrich {c : CaseCheck} (h : s.Blocks ended) (hSound : s.Sound) (hc : c ∈ s.cases)
    (block : Block) :
    (s.setRegistry c.kind
      ((s.registry c.kind).modify c.subject (·.enrich c.current block))).Blocks
        (ended ++ [⟨c.subject, c.current, block.switches⟩]) := by
  obtain ⟨a, ha, hCase⟩ := hSound.cases c hc
  have hMem : a ∈ (s.registry c.kind).axes ∧ a.name = c.subject := Registry.get?_eq_some ha
  have hExtends : ∀ a : Axis, Axis.Extends a (a.enrich c.current block) := by
    intro a
    refine ⟨rfl, rfl, fun l hl => ?_⟩
    rw [Axis.labels_enrich]
    exact hl
  -- An axis under another name gets nothing from the alternative.
  have hOther : ∀ x : Axis, x.name ≠ c.subject → ∀ l,
      blockOf (ended ++ [⟨c.subject, c.current, block.switches⟩]) x.name l =
        blockOf ended x.name l := by
    intro x hx l
    rw [blockOf_append]
    simp [blockOf, Ne.symm hx]
  constructor
  · intro kind x hx branch hBranch
    rw [registry_setRegistry_eq] at hx
    split at hx
    · rename_i hKind
      subst hKind
      obtain ⟨y, hy, rfl⟩ := List.mem_map.mp hx
      by_cases hName : y.name = c.subject
      · rw [if_pos (beq_iff_eq.mpr hName)] at hBranch ⊢
        obtain ⟨-, rfl⟩ := hSound.axis_unique hy hMem.1 (hName.trans hMem.2.symm)
        have hTargets : ∀ l ∈ c.current, l ∈ y.blocks.labels := by
          rw [((hSound.registry c.kind).axes y hy).2.blocks_labels]
          exact fun l hl => hCase.used_mem l (hCase.current_used l hl)
        have hBranches : (y.enrich c.current block).branches = y.branches.map fun b =>
            if b.label ∈ c.current then { b with block := b.block.absorb block } else b :=
          Shelf.branches_absorb hCase.current_nodup hTargets
        rw [hBranches] at hBranch
        obtain ⟨old, hOld, rfl⟩ := List.mem_map.mp hBranch
        have hSwitches := h.switches _ y hy old hOld
        rw [Axis.name_enrich, blockOf_append]
        by_cases hLabel : old.label ∈ c.current
        · simp [blockOf, hName, hLabel, Block.absorb, hSwitches]
        · simp [blockOf, hLabel, hSwitches]
      · rw [if_neg (by simpa using hName)] at hBranch ⊢
        rw [hOther y hName]
        exact h.switches _ y hy branch hBranch
    · rename_i hKind
      rw [hOther x fun hName => hKind (hSound.axis_unique hx hMem.1 (hName.trans hMem.2.symm)).1]
      exact h.switches kind x hx branch hBranch
  · intro d hd
    rcases List.mem_append.mp hd with hOld | hLast
    · exact h.declared_modify c.kind c.subject hExtends d hOld
    · rw [List.mem_singleton.mp hLast]
      refine ⟨c.kind, a.enrich c.current block, ?_, hMem.2, fun l hl => ?_⟩
      · rw [registry_setRegistry]
        have hModified := List.mem_map_of_mem (f := fun a : Axis =>
          if a.name == c.subject then a.enrich c.current block else a) hMem.1
        rwa [if_pos (beq_iff_eq.mpr hMem.2)] at hModified
      · rw [Axis.labels_enrich]
        exact hCase.used_mem l (hCase.current_used l hl)

/-- A step that changes neither tool nor sources nor registries keeps everything a plan is made of,
apart from blocks. -/
theorem of_registries (h : s.Blocks ended) (hChoices : s'.choices = s.choices)
    (hInputs : s'.inputs = s.inputs) : s'.Blocks ended := by
  apply h.congr
  intro kind
  rw [registry_eq hChoices hInputs]

/-- An update of one axis keeps the declarations when it keeps that of every axis. -/
theorem modify {f : Axis → Axis} (h : s.Blocks ended) (kind : AxisKind) (name : Text)
    (hf : ∀ a, (f a).bare = a.bare) :
    (s.setRegistry kind ((s.registry kind).modify name f)).Blocks ended := by
  apply h.congr
  intro kind'
  rw [registry_setRegistry_eq]
  split
  · rename_i hKind
    rw [hKind]
    exact Registry.map_modify _ name Axis.bare hf
  · rfl

end Blocks

/-- What a case statement leaves alone: the tool, the sources and the declarations. -/
structure Kept (s s' : State) : Prop where
  tool : s'.tool = s.tool
  sources : s'.sources = s.sources
  declarations : ∀ kind,
    (s'.registry kind).axes.map Axis.declaration = (s.registry kind).axes.map Axis.declaration

namespace Kept

variable {s₁ : State}

/-- What is kept from one state to the next and from there to a third is kept all the way. -/
theorem trans (h : s.Kept s₁) (h' : s₁.Kept s') : s.Kept s' where
  tool := h'.tool.trans h.tool
  sources := h'.sources.trans h.sources
  declarations := fun kind => (h'.declarations kind).trans (h.declarations kind)

theorem of_registries (hTool : s'.tool = s.tool) (hSources : s'.sources = s.sources)
    (hChoices : s'.choices = s.choices) (hInputs : s'.inputs = s.inputs) : s.Kept s' where
  tool := hTool
  sources := hSources
  declarations := by
    intro kind
    rw [registry_eq hChoices hInputs]

theorem modify {f : Axis → Axis} (s : State) (kind : AxisKind) (name : Text)
    (hf : ∀ a, (f a).declaration = a.declaration) :
    s.Kept (s.setRegistry kind ((s.registry kind).modify name f)) where
  tool := by cases kind <;> rfl
  sources := by cases kind <;> rfl
  declarations := by
    intro kind'
    rw [registry_setRegistry_eq]
    split
    · rename_i hKind
      rw [hKind]
      exact Registry.map_modify _ name Axis.declaration hf
    · rfl

end Kept

section nesting

variable {events : List Event} {ended : List Contribution} {top : Block} {bs : List Block}
  {c : CaseCheck} {cs : List CaseCheck}

/-- The labels of an alternative are those of the open case statement. -/
theorem SoundRun.labels {labels : List Text}
    (h : SoundRun config s (labels.map .addAlternativeLabel ++ events) s')
    (hCases : s.cases = c :: cs) :
    ∃ c₁ diary, c₁.subject = c.subject ∧ c₁.kind = c.kind ∧ c₁.current = c.current ++ labels ∧
      SoundRun config { s with cases := c₁ :: cs, toDiary := diary } events s' := by
  induction labels generalizing s c with
  | nil =>
      refine ⟨c, s.toDiary, rfl, rfl, (List.append_nil _).symm, ?_⟩
      rw [← hCases]
      exact h
  | cons label labels ih =>
      obtain ⟨diary, hRest⟩ := SoundRun.addAlternativeLabel h hCases
      obtain ⟨c₁, diary', hSubject, hKind, hCurrent, hRun⟩ := ih hRest rfl
      refine ⟨c₁, diary', hSubject, hKind, ?_, hRun⟩
      rw [hCurrent, List.append_assoc]
      rfl

/-- An alternative is opened: it has its labels and a new block. -/
theorem SoundRun.openAlternative {label : Text} {labels : List Text}
    (h : SoundRun config s (.beginAlternative :: labelEvents label labels ++ events) s')
    (hBlocks : s.Blocks ended) (hCases : s.cases = c :: cs) :
    ∃ s₁ c₁ name, SoundRun config s₁ events s' ∧ s₁.Blocks ended ∧ s.Kept s₁ ∧
      s₁.cases = c₁ :: cs ∧ c₁.subject = c.subject ∧ c₁.current = label :: labels ∧
      s₁.scopes.blocks = ⟨name, []⟩ :: s.scopes.blocks := by
  obtain ⟨diary, hBegun⟩ := SoundRun.beginAlternative h hCases
  obtain ⟨c₁, diary', hSubject, _, hCurrent, hRun⟩ := SoundRun.labels hBegun rfl
  exact ⟨_, c₁, _, hRun, hBlocks.of_registries rfl rfl, .of_registries rfl rfl rfl rfl, rfl,
    hSubject, hCurrent, rfl⟩

/-- An alternative is closed: its block goes to the blocks of its labels. -/
theorem SoundRun.closeAlternative (h : SoundRun config s (.endAlternative :: events) s')
    (hBlocks : s.Blocks ended) (hCases : s.cases = c :: cs) (hScopes : s.scopes.blocks = top :: bs) :
    ∃ s₁ c₁, SoundRun config s₁ events s' ∧
      s₁.Blocks (ended ++ [⟨c.subject, c.current, top.switches⟩]) ∧ s.Kept s₁ ∧
      s₁.cases = c₁ :: cs ∧ c₁.subject = c.subject ∧ s₁.scopes.blocks = bs := by
  have hMem : c ∈ s.cases := hCases ▸ List.mem_cons_self
  obtain ⟨diary, hRun⟩ := h.endAlternative hCases hScopes
  refine ⟨_, _, hRun, (hBlocks.enrich h.sound hMem top).of_registries rfl rfl, ?_, rfl, rfl, rfl⟩
  refine (Kept.modify s c.kind c.subject fun a => ?_).trans (.of_registries rfl rfl rfl rfl)
  rw [Axis.declaration, Axis.declaration, Axis.labels_enrich]
  rfl

/-- A case statement is opened and closed, and its alternatives are all that it does. -/
theorem SoundRun.openCase {subject : Text} (h : SoundRun config s (.beginCase subject :: events) s')
    (hBlocks : s.Blocks ended) :
    ∃ s₁ c, SoundRun config s₁ events s' ∧ s₁.Blocks ended ∧ s.Kept s₁ ∧
      s₁.cases = c :: s.cases ∧ c.subject = subject ∧ s₁.scopes = s.scopes := by
  obtain ⟨c, diary, hSubject, hRun⟩ := h.beginCase
  have hUsed := hBlocks.modify (f := ({ · with usedInCase := true })) c.kind subject fun _ => rfl
  refine ⟨_, c, hRun, hUsed.of_registries rfl rfl, ?_, rfl, hSubject, ?_⟩
  · refine Kept.trans (Kept.modify (f := ({ · with usedInCase := true })) s c.kind subject ?_)
      (.of_registries rfl rfl rfl rfl)
    exact fun _ => rfl
  · exact scopes_setRegistry _ _ _

/-- The end of a case statement leaves the blocks alone and goes back to the statement around it.
Its switches have been given to the labels by then. -/
theorem SoundRun.closeCase (h : SoundRun config s (.endCase :: events) s')
    (hBlocks : s.Blocks ended) (hCases : s.cases = c :: cs) :
    ∃ s₁, SoundRun config s₁ events s' ∧ s₁.Blocks ended ∧ s.Kept s₁ ∧ s₁.cases = cs ∧
      s₁.scopes = s.scopes := by
  obtain ⟨occurred, diary, hRun⟩ := h.endCase hCases
  exact ⟨_, hRun, hBlocks.of_registries rfl rfl, .of_registries rfl rfl rfl rfl, rfl, rfl⟩

/-- What the elements of an alternative do: the options that stand in it directly go to its block,
and the case statements within it add to the blocks of labels. -/
def BodyRuns (config : Config) (b : Body) : Prop :=
  ∀ ⦃s s' : State⦄ ⦃events : List Event⦄ ⦃ended : List Contribution⦄ ⦃top : Block⦄
    ⦃bs : List Block⦄, SoundRun config s (b.events ++ events) s' → s.Blocks ended →
    s.scopes.blocks = top :: bs →
    ∃ s₁, SoundRun config s₁ events s' ∧ s₁.Blocks (ended ++ b.contributions) ∧ s.Kept s₁ ∧
      s₁.cases = s.cases ∧ s₁.scopes.blocks = ⟨top.name, top.switches ++ b.switches⟩ :: bs

/-- What some alternatives over a subject do: they add to the blocks of labels and leave the open
blocks as they were. -/
def AlternativesRun (config : Config) (made : List Event)
    (contributions : Text → List Contribution) : Prop :=
  ∀ ⦃s s' : State⦄ ⦃events : List Event⦄ ⦃ended : List Contribution⦄ ⦃c : CaseCheck⦄
    ⦃cs : List CaseCheck⦄, SoundRun config s (made ++ events) s' → s.Blocks ended →
    s.cases = c :: cs →
    ∃ s₁ c₁, SoundRun config s₁ events s' ∧ s₁.Blocks (ended ++ contributions c.subject) ∧
      s.Kept s₁ ∧ s₁.cases = c₁ :: cs ∧ c₁.subject = c.subject ∧
      s₁.scopes.blocks = s.scopes.blocks

/-- One alternative, given what its body does. -/
theorem alternative_runs {label : Text} {labels : List Text} {b : Body} (hBody : BodyRuns config b) :
    AlternativesRun config
      (.beginAlternative :: labelEvents label labels ++ b.events ++ [.endAlternative])
      fun subject => b.contributions ++ [⟨subject, label :: labels, b.switches⟩] := by
  intro s s' events ended c cs h hBlocks hCases
  rw [List.append_assoc, List.append_assoc] at h
  obtain ⟨s₁, c₁, name, hRun₁, hBlocks₁, hKept₁, hCases₁, hSubject₁, hLabels₁, hScopes₁⟩ :=
    h.openAlternative hBlocks hCases
  obtain ⟨s₂, hRun₂, hBlocks₂, hKept₂, hCases₂, hScopes₂⟩ := hBody hRun₁ hBlocks₁ hScopes₁
  obtain ⟨s₃, c₃, hRun₃, hBlocks₃, hKept₃, hCases₃, hSubject₃, hScopes₃⟩ :=
    hRun₂.closeAlternative hBlocks₂ (hCases₂.trans hCases₁) hScopes₂
  refine ⟨s₃, c₃, hRun₃, ?_, (hKept₁.trans hKept₂).trans hKept₃, hCases₃,
    hSubject₃.trans hSubject₁, hScopes₃⟩
  rw [hSubject₁, hLabels₁, List.append_assoc] at hBlocks₃
  exact hBlocks₃

/-- A case statement, given what its alternatives do. -/
theorem SoundRun.case {subject : Text} {made : List Event}
    {contributions : Text → List Contribution}
    (hAlternatives : AlternativesRun config made contributions)
    (h : SoundRun config s (.beginCase subject :: made ++ .endCase :: events) s')
    (hBlocks : s.Blocks ended) :
    ∃ s₁, SoundRun config s₁ events s' ∧ s₁.Blocks (ended ++ contributions subject) ∧ s.Kept s₁ ∧
      s₁.cases = s.cases ∧ s₁.scopes.blocks = s.scopes.blocks := by
  obtain ⟨s₁, c₁, hRun₁, hBlocks₁, hKept₁, hCases₁, hSubject₁, hScopes₁⟩ := h.openCase hBlocks
  obtain ⟨s₂, c₂, hRun₂, hBlocks₂, hKept₂, hCases₂, _, hScopes₂⟩ :=
    hAlternatives hRun₁ hBlocks₁ hCases₁
  obtain ⟨s₃, hRun₃, hBlocks₃, hKept₃, hCases₃, hScopes₃⟩ := hRun₂.closeCase hBlocks₂ hCases₂
  rw [hSubject₁] at hBlocks₃
  refine ⟨s₃, hRun₃, hBlocks₃, (hKept₁.trans hKept₂).trans hKept₃, hCases₃, ?_⟩
  rw [hScopes₃, hScopes₂, hScopes₁]

mutual

/-- The elements of an alternative add their switches to its block in order, and case statements
among them leave it alone. By induction on the elements, together with that on alternatives. -/
theorem body_runs (b : Body) : BodyRuns config b := by
  intro s s' events ended top bs h hBlocks hScopes
  match b with
  | .nil =>
      refine ⟨s, h, ?_, .of_registries rfl rfl rfl rfl, rfl, ?_⟩
      · rwa [Body.contributions, List.append_nil]
      · rw [hScopes, Body.switches, List.append_nil]
  | .option name value rest =>
      obtain ⟨diary, hRun⟩ := SoundRun.addSwitch h hScopes
      obtain ⟨s₁, hRun₁, hBlocks₁, hKept₁, hCases₁, hScopes₁⟩ :=
        body_runs rest hRun (hBlocks.of_registries rfl rfl) rfl
      refine ⟨s₁, hRun₁, hBlocks₁, ?_, hCases₁, ?_⟩
      · refine Kept.trans ?_ hKept₁
        exact .of_registries rfl rfl rfl rfl
      · rw [hScopes₁, Body.switches, Block.push, List.append_assoc]
        rfl
  | .case subject alternatives rest =>
      have hRun : SoundRun config s
          (.beginCase subject :: alternatives.events ++ .endCase :: (rest.events ++ events)) s' := by
        simpa [Body.events] using h
      obtain ⟨s₁, hRun₁, hBlocks₁, hKept₁, hCases₁, hScopes₁⟩ :=
        hRun.case (alternatives_run alternatives) hBlocks
      obtain ⟨s₂, hRun₂, hBlocks₂, hKept₂, hCases₂, hScopes₂⟩ :=
        body_runs rest hRun₁ hBlocks₁ (hScopes₁.trans hScopes)
      refine ⟨s₂, hRun₂, ?_, hKept₁.trans hKept₂, hCases₂.trans hCases₁, hScopes₂⟩
      rwa [Body.contributions, ← List.append_assoc]

/-- Each alternative adds its switches to the blocks of its labels when it ends, so the
contributions come in the order of the alternatives. By induction on them. -/
theorem alternatives_run (a : Alternatives) :
    AlternativesRun config a.events fun subject => a.contributions subject := by
  match a with
  | .last label labels body => exact alternative_runs (body_runs body)
  | .cons label labels body rest =>
      intro s s' events ended c cs h hBlocks hCases
      have hRun : SoundRun config s ((.beginAlternative :: labelEvents label labels ++ body.events ++
          [.endAlternative]) ++ (rest.events ++ events)) s' := by
        simpa [Alternatives.events] using h
      obtain ⟨s₁, c₁, hRun₁, hBlocks₁, hKept₁, hCases₁, hSubject₁, hScopes₁⟩ :=
        alternative_runs (body_runs body) hRun hBlocks hCases
      obtain ⟨s₂, c₂, hRun₂, hBlocks₂, hKept₂, hCases₂, hSubject₂, hScopes₂⟩ :=
        alternatives_run rest hRun₁ hBlocks₁ hCases₁
      refine ⟨s₂, c₂, hRun₂, ?_, hKept₁.trans hKept₂, hCases₂, hSubject₂.trans hSubject₁,
        hScopes₂.trans hScopes₁⟩
      rw [hSubject₁] at hBlocks₂
      simpa [Alternatives.contributions] using hBlocks₂

end

end nesting

section declarations

variable {events : List Event} {ended : List Contribution} {t : State} {a : Axis}

/-- An axis is being declared: it stands last among those of its sort, and nothing else has
changed. -/
structure Declaring (s : State) (kind : AxisKind) (a : Axis) (t : State) : Prop where
  registry : t.registry kind = (s.registry kind).append a
  other : ∀ kind', kind' ≠ kind → t.registry kind' = s.registry kind'
  tool : t.tool = s.tool
  sources : t.sources = s.sources
  cases : t.cases = s.cases
  scopes : t.scopes = s.scopes

/-- While an axis is declared it stands last in its registry, so that each step of the declaration
replaces the last axis by the next. -/
theorem Declaring.setRegistry {b : Axis} {diary : Diary} (h : s.Declaring kind a t) {r : Registry}
    (hr : r = (s.registry kind).append b) :
    s.Declaring kind b { t.setRegistry kind r with toDiary := diary } where
  registry := by
    rw [← hr]
    exact registry_setRegistry t kind r
  other := by
    intro kind' hKind
    have hSame := registry_setRegistry_eq t kind kind' r
    rw [if_neg hKind] at hSame
    exact hSame.trans (h.other kind' hKind)
  tool := by cases kind <;> exact h.tool
  sources := by cases kind <;> exact h.sources
  cases := (cases_setRegistry t kind r).trans h.cases
  scopes := (scopes_setRegistry t kind r).trans h.scopes

/-- Labels are added one by one to the axis that is being declared, each with an empty block, and
the blocks of other axes stay as they are. -/
theorem SoundRun.addLabels {labels : List Text}
    (h : SoundRun config t (labels.map (.addLabel kind a.name) ++ events) s')
    (hDeclaring : s.Declaring kind a t) (hNew : a.name ∉ (s.registry kind).names)
    (hBlocks : t.Blocks ended) :
    ∃ t₁ a₁, SoundRun config t₁ events s' ∧ s.Declaring kind a₁ t₁ ∧ t₁.Blocks ended ∧
      a₁.name = a.name ∧ a₁.labels = a.labels ++ labels ∧ a₁.default = a.default := by
  induction labels generalizing t a with
  | nil => exact ⟨t, a, h, hDeclaring, hBlocks, rfl, (List.append_nil _).symm, rfl⟩
  | cons label labels ih =>
      obtain ⟨a', diary, ha', hLabel, hRun⟩ := SoundRun.addLabel h
      have hBlocks₁ := hBlocks.addBranch h.sound ha' hLabel
      have hModified : (t.registry kind).modify a.name (·.addBranch label) =
          (s.registry kind).append (a.addBranch label) := by
        rw [hDeclaring.registry]
        exact Registry.modify_append hNew
      obtain ⟨t₁, a₁, hRun₁, hDeclaring₁, hBlocks₂, hName, hLabels, hDefault⟩ :=
        ih (a := a.addBranch label) hRun (hDeclaring.setRegistry hModified) hNew
          (hBlocks₁.of_registries rfl rfl)
      refine ⟨t₁, a₁, hRun₁, hDeclaring₁, hBlocks₂, hName, ?_, hDefault⟩
      rw [hLabels, Axis.labels_addBranch, List.append_assoc]
      rfl

/-- A declaration adds an axis with its labels and its default, and leaves the rest alone. -/
theorem SoundRun.declaration {name label : Text} {labels : List Text} {default : Option Text}
    (h : SoundRun config s ((Statement.axis kind name label labels default).events ++ events) s')
    (hBlocks : s.Blocks ended) :
    ∃ t a, SoundRun config t events s' ∧ s.Declaring kind a t ∧ t.Blocks ended ∧
      a.declaration = ⟨name, label :: labels, default.getD []⟩ := by
  have hRun : SoundRun config s (.declare kind name :: ((label :: labels).map (.addLabel kind name) ++
      ((default.map (.setDefault kind name)).toList ++ events))) s' := by
    simpa [Statement.events] using h
  obtain ⟨hNew, pos, diary, hRun₁⟩ := hRun.declare
  let a : Axis := { kind := (s.registry kind).kind, name, declared := pos }
  have hSelf : s.Declaring kind a { s.setRegistry kind ((s.registry kind).append a) with
      toDiary := diary } := by
    constructor
    · exact registry_setRegistry s kind _
    · intro kind' hKind
      have hSame := registry_setRegistry_eq s kind kind' ((s.registry kind).append a)
      rw [if_neg hKind] at hSame
      exact hSame
    all_goals cases kind <;> rfl
  obtain ⟨t₁, a₁, hRun₂, hDeclaring₁, hBlocks₁, hKept, hLabels, hDefault⟩ :=
    SoundRun.addLabels (a := a) hRun₁ hSelf hNew
      ((hBlocks.append (a := a) kind rfl).of_registries rfl rfl)
  have hName : a₁.name = name := hKept
  cases default with
  | none =>
      refine ⟨t₁, a₁, hRun₂, hDeclaring₁, hBlocks₁, ?_⟩
      rw [Axis.declaration, hName, hLabels, hDefault]
      rfl
  | some l =>
      obtain ⟨diary', hRun₃⟩ := SoundRun.setDefault hRun₂
      have hModified : (t₁.registry kind).modify name ({ · with default := l }) =
          (s.registry kind).append { a₁ with default := l } := by
        rw [hDeclaring₁.registry, ← hName]
        exact Registry.modify_append (hName ▸ hNew)
      have hBlocks₂ := hBlocks₁.modify (f := ({ · with default := l })) kind name fun _ => rfl
      refine ⟨_, _, hRun₃, hDeclaring₁.setRegistry hModified, hBlocks₂.of_registries rfl rfl, ?_⟩
      have hLabels' : Axis.labels { a₁ with default := l } = a₁.labels := rfl
      rw [Axis.declaration, hLabels', hLabels]
      exact congrArg (AxisDeclaration.mk · (label :: labels) l) hName

end declarations

section statements

variable {events : List Event} {script : List Statement}

/-- What an engine holds between two statements, told from the statements that have ended. -/
structure Reached (s : State) (script : List Statement) : Prop where
  blocks : s.Blocks (Script.contributions script)
  cases : s.cases = []
  main : ∃ name, s.scopes.blocks = [⟨name, Script.main script⟩]
  tool : s.tool = (Script.tools script).getLast?.getD []
  sources : s.sources = Script.sources script
  axes : ∀ kind, (s.registry kind).axes.map Axis.declaration = Script.axes kind script

/-- Before the first statement there is nothing but the main block. -/
theorem reached_begun (diary : Diary) :
    Reached { ({} : State) with scopes := ⟨[{ name := "main" }]⟩, toDiary := diary } [] := by
  refine ⟨⟨?_, nofun⟩, rfl, ⟨_, rfl⟩, rfl, rfl, ?_⟩
  · intro kind
    cases kind <;> nofun
  · intro kind
    cases kind <;> rfl

/-- It is enough to tell what a statement adds. -/
theorem reached_append {s₁ : State} {statement : Statement} {name : Text}
    (hBlocks : s₁.Blocks (Script.contributions script ++ Script.contributions [statement]))
    (hCases : s₁.cases = [])
    (hMain : s₁.scopes.blocks = [⟨name, Script.main script ++ Script.main [statement]⟩])
    (hTool : s₁.tool = (Script.tools script ++ Script.tools [statement]).getLast?.getD [])
    (hSources : s₁.sources = Script.sources script ++ Script.sources [statement])
    (hAxes : ∀ kind, (s₁.registry kind).axes.map Axis.declaration =
      Script.axes kind script ++ Script.axes kind [statement]) :
    s₁.Reached (script ++ [statement]) where
  blocks := by rwa [Script.contributions_append]
  cases := hCases
  main := ⟨name, by rwa [Script.main_append]⟩
  tool := by rwa [Script.tools_append]
  sources := by rwa [Script.sources_append]
  axes := fun kind => by rw [hAxes kind, Script.axes_append]

/-- A statement that adds nothing. -/
theorem Reached.skip {statement : Statement} (h : s.Reached script)
    (hBlocks : Script.contributions [statement] = []) (hMain : Script.main [statement] = [])
    (hTools : Script.tools [statement] = []) (hSources : Script.sources [statement] = [])
    (hAxes : ∀ kind, Script.axes kind [statement] = []) : s.Reached (script ++ [statement]) := by
  obtain ⟨name, hName⟩ := h.main
  apply reached_append
  · rw [hBlocks, List.append_nil]
    exact h.blocks
  · exact h.cases
  · rw [hMain, List.append_nil]
    exact hName
  · rw [hTools, List.append_nil]
    exact h.tool
  · rw [hSources, List.append_nil]
    exact h.sources
  · intro kind
    rw [hAxes, List.append_nil]
    exact h.axes kind

/-- Selections change nothing that commands are made of but themselves. -/
theorem Reached.select {choice label : Text} (hReached : s.Reached script)
    (h : SoundRun config s (.select choice label :: events) s') :
    ∃ s₁, SoundRun config s₁ events s' ∧ s₁.Reached script := by
  obtain ⟨r, hSame, hRun⟩ := h.select
  obtain ⟨hBlocks, hCases, hMain, hTool, hSources, hAxes⟩ := hReached
  refine ⟨_, hRun, hBlocks.congr fun kind => ?_, hCases, hMain, hTool, hSources, fun kind => ?_⟩
  · cases kind with
    | choice => exact hSame.map_eq Axis.bare fun _ => rfl
    | input => rfl
  · cases kind with
    | choice => exact (hSame.map_eq Axis.declaration fun _ => rfl).trans (hAxes .choice)
    | input => exact hAxes .input

/-- One statement. -/
theorem Reached.statement {statement : Statement} (hReached : s.Reached script)
    (h : SoundRun config s (statement.events ++ events) s') :
    ∃ s₁, SoundRun config s₁ events s' ∧ s₁.Reached (script ++ [statement]) := by
  have ⟨hBlocks, hCases, ⟨name, hMain⟩, hTool, hSources, hAxes⟩ := hReached
  have hBlocks' := (List.append_nil (Script.contributions script)).symm ▸ hBlocks
  have hMain' := (List.append_nil (Script.main script)).symm ▸ hMain
  have hTool' := (List.append_nil (Script.tools script)).symm ▸ hTool
  have hSources' := hSources.trans (List.append_nil _).symm
  have hAxes' := fun kind => (hAxes kind).trans (List.append_nil _).symm
  cases statement with
  | tool tool =>
      obtain ⟨pos, diary, hRun⟩ := SoundRun.setTool h
      refine ⟨_, hRun, reached_append (hBlocks'.of_registries rfl rfl) hCases hMain' ?_ hSources' ?_⟩
      · simp [Script.tools]
      · intro kind
        rw [registry_eq rfl rfl kind]
        exact hAxes' kind
  | source source =>
      obtain ⟨diary, hRun⟩ := SoundRun.addSource h
      refine ⟨_, hRun, reached_append (hBlocks'.of_registries rfl rfl) hCases hMain' hTool' ?_ ?_⟩
      · rw [hSources]
        rfl
      · intro kind
        rw [registry_eq rfl rfl kind]
        exact hAxes' kind
  | axis kind axis label labels default =>
      obtain ⟨t, a, hRun, hDeclaring, hBlocks₁, ha⟩ := h.declaration hBlocks'
      have hScopes := (congrArg Scopes.blocks hDeclaring.scopes).trans hMain'
      refine ⟨t, hRun, reached_append hBlocks₁ (hDeclaring.cases.trans hCases) hScopes
        (hDeclaring.tool.trans hTool') (hDeclaring.sources.trans hSources') ?_⟩
      intro kind'
      by_cases hKind : kind = kind'
      · subst hKind
        rw [hDeclaring.registry, Registry.append, List.map_append, hAxes]
        simp [Script.axes, ha]
      · rw [hDeclaring.other kind' (Ne.symm hKind), hAxes]
        simp [Script.axes, hKind]
  | option option value =>
      obtain ⟨diary, hRun⟩ := SoundRun.addSwitch h hMain
      refine ⟨_, hRun, reached_append (hBlocks'.of_registries rfl rfl) hCases rfl hTool'
        hSources' ?_⟩
      intro kind
      rw [registry_eq rfl rfl kind]
      exact hAxes' kind
  | case subject alternatives =>
      have hRun : SoundRun config s
          (.beginCase subject :: alternatives.events ++ .endCase :: events) s' := by
        simpa [Statement.events] using h
      obtain ⟨s₁, hRun₁, hBlocks₁, hKept, hCases₁, hScopes⟩ :=
        hRun.case (alternatives_run alternatives) hBlocks
      refine ⟨s₁, hRun₁, reached_append ?_ (hCases₁.trans hCases) (hScopes.trans hMain')
        (hKept.tool.trans hTool') (hKept.sources.trans hSources') ?_⟩
      · simpa [Script.contributions] using hBlocks₁
      · intro kind
        exact (hKept.declarations kind).trans (hAxes' kind)
  | select choice label =>
      obtain ⟨s₁, hRun, hReached₁⟩ := hReached.select h
      exact ⟨s₁, hRun, hReached₁.skip rfl rfl rfl rfl fun _ => rfl⟩
  | every choice =>
      obtain ⟨s₁, hRun, hReached₁⟩ := hReached.select h
      exact ⟨s₁, hRun, hReached₁.skip rfl rfl rfl rfl fun _ => rfl⟩

/-- All statements of a script, one after another. -/
theorem Reached.statements {more : List Statement} (hReached : s.Reached script)
    (h : SoundRun config s (more.flatMap Statement.events ++ events) s') :
    ∃ s₁, SoundRun config s₁ events s' ∧ s₁.Reached (script ++ more) := by
  induction more generalizing s script with
  | nil => exact ⟨s, h, (List.append_nil script).symm ▸ hReached⟩
  | cons statement more ih =>
      rw [List.flatMap_cons, List.append_assoc] at h
      obtain ⟨s₁, hRun₁, hReached₁⟩ := hReached.statement h
      obtain ⟨s₂, hRun₂, hReached₂⟩ := ih hReached₁ hRun₁
      refine ⟨s₂, hRun₂, ?_⟩
      rwa [List.append_assoc, List.singleton_append] at hReached₂

end statements

section ending

variable {script : List Statement}

/-- The block of a label holds what the alternatives over it add. -/
theorem Blocks.words_block? {ended : List Contribution} {a : Axis} (h : s.Blocks ended)
    (kind : AxisKind) (ha : a ∈ (s.registry kind).axes) (hSound : a.Sound) (label : Text) :
    (a.block? label).map Block.words =
      if label ∈ a.labels then some (Switch.allWords (blockOf ended a.name label)) else none := by
  cases hBlock : a.block? label with
  | none =>
      have hLabel : label ∉ a.labels := by
        rw [← hSound.block?_isSome_iff, hBlock]
        exact Bool.false_ne_true
      rw [if_neg hLabel]
      rfl
  | some block =>
      have hLabel : label ∈ a.labels := by
        rw [← hSound.block?_isSome_iff, hBlock]
        rfl
      rw [if_pos hLabel, ← h.switches kind a ha ⟨label, block⟩ (Shelf.mem_of_get? hBlock)]
      rfl

/-- The sources found at the end are those of the meaning of the script, and there is at least one.
-/
theorem Reached.resolvedSources {sources : List Text} (h : s.Reached script)
    (hSources : s.sourcesOf config = some sources) :
    Script.resolvedSources config script = some sources ∧ sources ≠ [] := by
  rw [sourcesOf] at hSources
  rw [Script.resolvedSources]
  split at hSources
  · rename_i hInputs
    have hGiven : config.inputs ≠ [] := by simpa using hInputs
    rw [if_pos hGiven]
    cases hSources
    exact ⟨rfl, hGiven⟩
  · rename_i hInputs
    have hNone : ¬config.inputs ≠ [] := by simpa using hInputs
    rw [if_neg hNone, ← h.sources]
    split at hSources
    · rename_i hOwn
      have hGiven : s.sources ≠ [] := by simpa using hOwn
      rw [if_pos hGiven]
      cases hSources
      exact ⟨rfl, hGiven⟩
    · rename_i hOwn
      have hNone' : ¬s.sources ≠ [] := by simpa using hOwn
      have hAxes : s.inputs.axes.map Axis.declaration = Script.axes .input script := h.axes .input
      rw [if_neg hNone', ← hAxes]
      split at hSources
      · rename_i a hOne
        rw [hOne]
        rw [Axis.defaultLabel?] at hSources
        split at hSources
        · cases hSources
        · rename_i hDefault
          cases hSources
          have hSome : a.default ≠ [] := by simpa using hDefault
          refine ⟨?_, List.cons_ne_nil _ _⟩
          exact if_neg hSome
      · cases hSources

/-- Making selections leaves the blocks of all labels alone. -/
theorem Reached.blocks_resolved {r : Resolver} (h : s.Reached script)
    (hSame : s.choices.SameButSelected r.choices) :
    Blocks { s with toResolver := r } (Script.contributions script) := by
  refine h.blocks.congr fun kind => ?_
  cases kind with
  | choice => exact hSame.map_eq Axis.bare fun _ => rfl
  | input => rfl

/-- The selected labels have blocks, with the words that the script means. -/
theorem Reached.holds {r : Resolver} {sources : List Text} (h : s.Reached script)
    (hSame : s.choices.SameButSelected r.choices) (hr : r.Sound) :
    (recipe { s with toResolver := r } r.selections sources).Holds
      fun x => Switch.allWords (Script.block script x.choice x.label) := by
  intro x hx
  obtain ⟨a, ha, hLabel⟩ := hr.label_declared hx
  obtain ⟨hMem, hName⟩ := Registry.get?_eq_some ha
  have hWords := (h.blocks_resolved hSame).words_block? .choice hMem (hr.choices.axes a hMem).2 x.label
  rw [if_pos hLabel, hName] at hWords
  change ((r.choices.get? x.choice).bind (·.block? x.label)).map Block.words = _
  rw [ha]
  exact hWords

/-- The commands that the engine makes are those the script means. -/
theorem Reached.commandsWith {r : Resolver} {main : Block} {sources : List Text}
    (h : s.Reached script) (hMain : main.switches = Script.main script)
    (hSame : s.choices.SameButSelected r.choices) (hInputs : s.inputs.Sound .input) (source : Text) :
    (recipe { s with toResolver := r } r.selections sources).commandsWith
        (fun x => Switch.allWords (Script.block script x.choice x.label)) main source =
      Script.commandsFor script s.tool r.selections source := by
  have hBase : (recipe { s with toResolver := r } r.selections sources).baseWords main source =
      Script.baseWords script source := by
    have hAxes : s.inputs.axes.map Axis.declaration = Script.axes .input script := h.axes .input
    rw [Script.baseWords, ← hAxes, ← hMain, List.flatMap_map]
    refine congrArg (main.words ++ ·) (List.flatMap_congr fun a ha => ?_)
    rw [(h.blocks_resolved hSame).words_block? .input ha (hInputs.axes a ha).2 source]
    -- The tree's axis has the labels of the engine's.
    change _ = if source ∈ a.labels then _ else _
    by_cases hSource : source ∈ a.labels
    · rw [if_pos hSource, if_pos hSource]
      rfl
    · rw [if_neg hSource, if_neg hSource]
      rfl
  rw [Recipe.commandsWith, Script.commandsFor, hBase]
  change (if r.selections.isEmpty then _ else r.selections.map _) = _
  by_cases hNone : r.selections = []
  · rw [if_pos (List.isEmpty_iff.mpr hNone), if_pos hNone]
    rfl
  · rw [if_neg (by simpa using hNone), if_neg hNone]
    rfl

/-- The end of a script: the plan holds the commands that the script means. -/
theorem Reached.plan (h : s.Reached script) (hRun : SoundRun config s [.endScript] s') :
    ∃ tool sources, (Script.tools script).getLast? = some tool ∧
      Script.resolvedSources config script = some sources ∧
      s'.plan = some ⟨some (Script.commands script tool sources s'.selections)⟩ := by
  obtain ⟨diary, pos, s₁, taken, ⟨_, hEnd⟩⟩ := hRun.uncons
  cases hEnd
  obtain ⟨_, hTool, r, sources, plan, diary', hSame, hSound, hSources, hPlan, rfl⟩ :=
    endScript_eq_none taken
  have hToolSet : s.tool ≠ [] := hTool
  obtain ⟨tool, hLast⟩ : ∃ tool, (Script.tools script).getLast? = some tool := by
    cases hTools : (Script.tools script).getLast? with
    | none =>
        rw [h.tool, hTools] at hToolSet
        exact absurd rfl hToolSet
    | some tool => exact ⟨tool, rfl⟩
  have hToolEq : s.tool = tool := by
    rw [h.tool, hLast]
    rfl
  obtain ⟨hResolved, hFilled⟩ := h.resolvedSources hSources
  obtain ⟨name, hMain⟩ := h.main
  have hSelf : State.Sound { s with toDiary := diary } := hRun.sound.congr rfl rfl rfl rfl
  have hr : r.Sound := hSound hSelf.resolver
  refine ⟨tool, sources, hLast, hResolved, ?_⟩
  let made := recipe { s with toResolver := r } r.selections sources
  have hMade : made.main = some ⟨name, Script.main script⟩ := by
    change s.scopes.blocks.getLast? = _
    rw [hMain]
    rfl
  let words : Selection → List Text := fun x => Switch.allWords (Script.block script x.choice x.label)
  have hCommands : made.sources.flatMap (made.commandsWith words ⟨name, Script.main script⟩) =
      Script.commands script tool sources r.selections := by
    rw [Script.commands, ← hToolEq]
    exact List.flatMap_congr fun source _ => h.commandsWith rfl hSame hSelf.inputs source
  have hSome : (Script.commands script tool sources r.selections).isEmpty = false := by
    rw [← hCommands, List.isEmpty_eq_false_iff, ← List.length_pos_iff, Recipe.length_commands]
    exact Nat.mul_pos (List.length_pos_iff.mpr hFilled) (by omega)
  have hWords : made.Holds words := h.holds hSame hr
  have hGenerated := hWords.generate_eq_ok hToolSet hMade
  rw [hCommands, hSome] at hGenerated
  have hPlan' : plan = ⟨some (Script.commands script tool sources r.selections)⟩ :=
    Except.ok.inj (hPlan.symm.trans hGenerated)
  exact congrArg some hPlan'

end ending

end State

/-- The meaning of a script. Whenever a new engine takes the events of a script to the end, with any
places and trace records between them, its plan holds exactly the commands that the script means
with the selections the engine has come to. -/
theorem plan_of_script (config : Config) (script : List Statement) (emitted : List Emission)
    (s : State) (hEvents : heard emitted = scriptEvents script)
    (hRun : handOn (State.receive config) {} emitted = (s, none)) :
    ∃ tool sources, (Script.tools script).getLast? = some tool ∧
      Script.resolvedSources config script = some sources ∧
      s.plan = some ⟨some (Script.commands script tool sources s.selections)⟩ := by
  have hRan : State.SoundRun config {} (scriptEvents script) s :=
    ⟨State.sound_empty, hEvents ▸ State.ran_of_handOn hRun⟩
  obtain ⟨diary, hBegun⟩ := State.SoundRun.beginScript hRan
  have hReached : State.Reached { ({} : State) with
      scopes := ⟨[{ name := "main" }]⟩, toDiary := diary } [] := by
    refine ⟨⟨?_, nofun⟩, rfl, ⟨_, rfl⟩, rfl, rfl, ?_⟩
    · intro kind
      cases kind <;> nofun
    · intro kind
      cases kind <;> rfl
  obtain ⟨s₁, hEnding, hReached₁⟩ := hReached.statements hBegun
  exact hReached₁.plan hEnding

/-- A script with one case statement inside of another one. -/
def nestedScript : List Statement :=
  [.tool "t", .source "s", .axis .choice "c" "a" ["b"] none, .axis .choice "d" "e" [] none,
    .option "-v" none,
    .case "c" (.cons "a" [] (.option "-x" (some "1") (.case "d" (.last "e" [] (.option "-y" none
      .nil)) .nil)) (.last "b" [] .nil)),
    .select "c" "a", .every "d"]

/-- The inner statement adds to the blocks of its own subject, so that the command for a label of
the outer one has no word of it. -/
theorem plan_of_nestedScript :
    ∃ s, handOn (State.receive {}) {} ((scriptEvents nestedScript).map (.event · .none)) =
        (s, none) ∧
      s.plan = some ⟨some
        [{ tool := "t", input := "s", choice := "c", label := "a", args := some ["-v", "-x", "1"] },
          { tool := "t", input := "s", choice := "d", label := "e", args := some ["-v", "-y"] }]⟩ := by
  have hRun : ∃ s, handOn (State.receive {}) {} ((scriptEvents nestedScript).map (.event · .none)) =
      (s, none) ∧ s.selections = [⟨"c", "a"⟩, ⟨"d", "e"⟩] := ⟨_, rfl, rfl⟩
  obtain ⟨s, hRun, hSelections⟩ := hRun
  obtain ⟨tool, sources, hTool, hSources, hPlan⟩ := plan_of_script {} nestedScript _ s rfl hRun
  refine ⟨s, hRun, ?_⟩
  have hToolEq : tool = "t" := (Option.some.inj hTool).symm
  have hSourcesEq : sources = ["s"] := (Option.some.inj hSources).symm
  rw [hPlan, hSelections, hToolEq, hSourcesEq]
  rfl

end Runsheet
