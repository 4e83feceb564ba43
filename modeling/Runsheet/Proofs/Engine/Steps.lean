import Runsheet.Engine
import Runsheet.Proofs.Selection

/-! What an event does to the engine. One law tells under which conditions an event is taken and what
the state is afterwards; another tells why it is refused, and that nothing had been changed by then.
Only the diary of a taken event is left open, since later events never read it. The end of an
alternative and the end of a case statement may fail after a change; what they leave is told too. -/
namespace Runsheet

namespace CaseCheck

variable {c c' : CaseCheck} {subject : Axis} {label : Text} {pos : Pos} {f : Failure}

/-- An alternative may be opened in a statement that is not closed and has no open one. Only the
labels of the alternative and the mark of an open one change. -/
theorem beginAlternative_eq_none (h : c.beginAlternative = (c', none)) :
    c.closed = false ∧ c.inAlternative = false ∧
      c' = { c with current := [], inAlternative := true } := by
  rw [beginAlternative] at h
  split at h
  · cases h
  · rename_i hClosed
    split at h
    · cases h
    · rename_i hOpen
      cases h
      exact ⟨by simpa using hClosed, by simpa using hOpen, rfl⟩

/-- Otherwise the caller has broken the contract, and the statement is as it was. -/
theorem beginAlternative_eq_some (h : c.beginAlternative = (c', some f)) :
    c' = c ∧ (∃ v, f = .violation v) ∧ (c.closed = true ∨ c.inAlternative = true) := by
  rw [beginAlternative] at h
  split at h
  · rename_i hClosed
    cases h
    exact ⟨rfl, ⟨_, rfl⟩, Or.inl hClosed⟩
  · split at h
    · rename_i hOpen
      cases h
      exact ⟨rfl, ⟨_, rfl⟩, Or.inr hOpen⟩
    · cases h

/-- A label is taken by an open alternative if the subject has it and no alternative used it before.
It then counts for both. -/
theorem addLabel_eq_none (h : c.addLabel subject label pos = (c', none)) :
    c.inAlternative = true ∧ subject.hasLabel label = true ∧ label ∉ c.used ∧
      c' = { c with used := c.used ++ [label], current := c.current ++ [label] } := by
  rw [addLabel] at h
  split at h
  · cases h
  · rename_i hOpen
    split at h
    · cases h
    · rename_i hLabel
      split at h
      · cases h
      · rename_i hUsed
        cases h
        exact ⟨by simpa using hOpen, by simpa using hLabel, by simpa using hUsed, rfl⟩

/-- A label is refused for want of an open alternative, which breaks the contract, or because the
subject does not have it or the statement used it before. -/
theorem addLabel_eq_some (h : c.addLabel subject label pos = (c', some f)) :
    c' = c ∧ (((∃ v, f = .violation v) ∧ c.inAlternative = false) ∨
      ∃ d, f = .diagnostic d ∧
        (subject.hasLabel label = false ∧ d.Rejects .unknownLabel pos label subject.labels ∨
          d.IsErrorAt .duplicateLabelInCase pos)) := by
  rw [addLabel] at h
  split at h
  · rename_i hOpen
    cases h
    exact ⟨rfl, Or.inl ⟨⟨_, rfl⟩, by simpa using hOpen⟩⟩
  · split at h
    · rename_i hLabel
      cases h
      exact ⟨rfl, Or.inr ⟨_, rfl, Or.inl ⟨by simpa using hLabel, ⟨rfl, rfl, rfl⟩, rfl⟩⟩⟩
    · split at h
      · cases h
        exact ⟨rfl, Or.inr ⟨_, rfl, Or.inr ⟨rfl, rfl, rfl⟩⟩⟩
      · cases h

/-- An open alternative that has labels is closed; its labels stay to be read until the next one is
opened. -/
theorem endAlternative_eq_none (h : c.endAlternative = (c', none)) :
    c.inAlternative = true ∧ c.current ≠ [] ∧ c' = { c with inAlternative := false } := by
  rw [endAlternative] at h
  split at h
  · cases h
  · rename_i hOpen
    split at h
    · cases h
    · rename_i hLabels
      cases h
      exact ⟨by simpa using hOpen, by simpa using hLabels, rfl⟩

/-- An alternative that is not open, or has no labels, cannot be closed. Both are the caller's fault
and change nothing. -/
theorem endAlternative_eq_some (h : c.endAlternative = (c', some f)) :
    c' = c ∧ (∃ v, f = .violation v) ∧ (c.inAlternative = false ∨ c.current = []) := by
  rw [endAlternative] at h
  split at h
  · rename_i hOpen
    cases h
    exact ⟨rfl, ⟨_, rfl⟩, Or.inl (by simpa using hOpen)⟩
  · split at h
    · rename_i hLabels
      cases h
      exact ⟨rfl, ⟨_, rfl⟩, Or.inr (by simpa using hLabels)⟩
    · cases h

/-- Missing labels are an error at the end of the statement, not at its beginning. -/
theorem isErrorAt_incomplete (c : CaseCheck) (unused : List Text) (pos : Pos) :
    (c.incomplete unused pos).IsErrorAt .incompleteCase pos :=
  ⟨rfl, rfl, rfl⟩

/-- A statement is closed when no alternative is open and every label of the subject has been used.
-/
theorem close_eq_none (h : c.close subject pos = (c', none)) :
    c.inAlternative = false ∧ c.closed = false ∧ c.unusedLabels subject = [] ∧
      c' = { c with closed := true } := by
  rw [close] at h
  split at h
  · cases h
  · rename_i hOpen
    split at h
    · cases h
    · rename_i hClosed
      split at h
      · rename_i hUnused
        cases h
        exact ⟨by simpa using hOpen, by simpa using hClosed, hUnused, rfl⟩
      · cases h

/-- The end of a statement is refused for a broken contract, which changes nothing, or for labels that
are missing. The statement is marked as closed before the labels are counted. -/
theorem close_eq_some (h : c.close subject pos = (c', some f)) :
    (c' = c ∧ (∃ v, f = .violation v) ∧ (c.inAlternative = true ∨ c.closed = true)) ∨
      (c.inAlternative = false ∧ c.closed = false ∧ c.unusedLabels subject ≠ [] ∧
        f = .diagnostic (c.incomplete (c.unusedLabels subject) pos) ∧
        c' = { c with closed := true }) := by
  rw [close] at h
  split at h
  · rename_i hOpen
    cases h
    exact Or.inl ⟨rfl, ⟨_, rfl⟩, Or.inl hOpen⟩
  · rename_i hOpen
    split at h
    · rename_i hClosed
      cases h
      exact Or.inl ⟨rfl, ⟨_, rfl⟩, Or.inr hClosed⟩
    · rename_i hClosed
      split at h
      · cases h
      · rename_i hUnused
        cases h
        exact Or.inr ⟨by simpa using hOpen, by simpa using hClosed, hUnused, rfl, rfl⟩

end CaseCheck

namespace Registry

variable {r r' : Registry} {name label : Text} {pos : Pos} {f : Failure}

/-- A free name gets a new axis at the end of the registry, with its place and without labels. -/
theorem declare_eq_none (h : r.declare name pos = (r', none)) :
    r.get? name = none ∧ r' = r.append { kind := r.kind, name, declared := pos } := by
  rw [declare] at h
  split at h
  · cases h
  · rename_i hNone
    cases h
    exact ⟨hNone, rfl⟩

/-- A name that is taken already is refused at its new place, and the registry stays as it was. -/
theorem declare_eq_some (h : r.declare name pos = (r', some f)) :
    r' = r ∧ ∃ d, f = .diagnostic d ∧ d.IsErrorAt .duplicateDeclaration pos := by
  rw [declare] at h
  split at h
  · cases h
    exact ⟨rfl, _, rfl, rfl, rfl, rfl⟩
  · cases h

/-- A label is added to a declared axis when it is not reserved and has no block there, and gets an
empty block. -/
theorem addLabel_eq_none (h : r.addLabel name label pos = (r', none)) :
    ∃ a, r.get? name = some a ∧ isAllLabels label = false ∧ a.hasLabel label = false ∧
      r' = r.modify name (·.addBranch label) := by
  rw [addLabel] at h
  split at h
  · cases h
  · rename_i a ha
    split at h
    · cases h
    · rename_i hReserved
      split at h
      · cases h
      · rename_i hLabel
        cases h
        exact ⟨a, ha, by simpa using hReserved, by simpa using hLabel, rfl⟩

/-- The three checks come before the label is added, so that a refusal leaves the registry as it
was: the axis has to be there, the label must not be reserved, and it must be new. -/
theorem addLabel_eq_some (h : r.addLabel name label pos = (r', some f)) :
    r' = r ∧ (((∃ v, f = .violation v) ∧ name ∉ r.names) ∨
      ∃ d, f = .diagnostic d ∧ (d.IsErrorAt .reservedLabel pos ∨ d.IsErrorAt .duplicateLabel pos)) := by
  rw [addLabel] at h
  split at h
  · rename_i hNone
    cases h
    exact ⟨rfl, Or.inl ⟨⟨_, rfl⟩, get?_eq_none_iff.mp hNone⟩⟩
  · split at h
    · cases h
      exact ⟨rfl, Or.inr ⟨_, rfl, Or.inl ⟨rfl, rfl, rfl⟩⟩⟩
    · split at h
      · cases h
        exact ⟨rfl, Or.inr ⟨_, rfl, Or.inr ⟨rfl, rfl, rfl⟩⟩⟩
      · cases h

/-- A label of a declared axis that has a block becomes its default, in place of an earlier one. -/
theorem setDefault_eq_none (h : r.setDefault name label pos = (r', none)) :
    ∃ a, r.get? name = some a ∧ a.hasLabel label = true ∧
      r' = r.modify name ({ · with default := label }) := by
  rw [setDefault] at h
  split at h
  · cases h
  · rename_i a ha
    split at h
    · cases h
    · rename_i hLabel
      cases h
      exact ⟨a, ha, by simpa using hLabel, rfl⟩

/-- A default is refused without a change, for an axis that is not declared, which breaks the
contract, or for a label that is not one of its labels. -/
theorem setDefault_eq_some (h : r.setDefault name label pos = (r', some f)) :
    r' = r ∧ (((∃ v, f = .violation v) ∧ name ∉ r.names) ∨
      ∃ a d, r.get? name = some a ∧ a.hasLabel label = false ∧ f = .diagnostic d ∧
        d.Rejects .labelNotInChoice pos label a.labels) := by
  rw [setDefault] at h
  split at h
  · rename_i hNone
    cases h
    exact ⟨rfl, Or.inl ⟨⟨_, rfl⟩, get?_eq_none_iff.mp hNone⟩⟩
  · rename_i a ha
    split at h
    · rename_i hLabel
      cases h
      exact ⟨rfl, Or.inr ⟨a, _, ha, by simpa using hLabel, rfl, ⟨rfl, rfl, rfl⟩, rfl⟩⟩
    · cases h

end Registry

namespace State

variable {config : Config} {s s' : State} {pos : Pos} {f : Failure}

section setRegistry

variable (s : State) (kind : AxisKind) (r : Registry)

@[simp] theorem registry_setRegistry : (s.setRegistry kind r).registry kind = r := by
  cases kind <;> rfl

@[simp] theorem cases_setRegistry : (s.setRegistry kind r).cases = s.cases := by
  cases kind <;> rfl

@[simp] theorem scopes_setRegistry : (s.setRegistry kind r).scopes = s.scopes := by
  cases kind <;> rfl

@[simp] theorem done_setRegistry : (s.setRegistry kind r).done = s.done := by
  cases kind <;> rfl

/-- A registry that an operation gives back as it was changes nothing. -/
@[simp] theorem setRegistry_registry : s.setRegistry kind (s.registry kind) = s := by
  cases kind <;> rfl

end setRegistry

/-- The innermost open case statement is the first in the list. -/
theorem currentCase_eq_ok {c : CaseCheck} (h : s.currentCase = .ok c) :
    s.cases = c :: s.cases.tail := by
  rw [currentCase] at h
  split at h
  · rename_i hCases
    cases h
    simp [hCases]
  · cases h

theorem currentCase_eq_error {v : Violation} (h : s.currentCase = .error v) : s.cases = [] := by
  rw [currentCase] at h
  split at h
  · cases h
  · assumption

/-- Nor does a case statement that is given back as it was. -/
theorem setCurrentCase_self {c : CaseCheck} (h : s.currentCase = .ok c) : s.setCurrentCase c = s := by
  rw [setCurrentCase, ← currentCase_eq_ok h]

/-- The script begins once, on an empty stack, and the main block is then alone on it. -/
theorem beginScript_eq_none (h : s.beginScript = (s', none)) :
    s.scopes.depth = 0 ∧
      ∃ diary, s' = { s with scopes := ⟨[{ name := "main" }]⟩, toDiary := diary } := by
  rw [beginScript] at h
  split at h
  · cases h
  · rename_i hDepth
    have hBlocks : s.scopes.blocks = [] := by simpa [Scopes.depth] using hDepth
    refine ⟨by simpa using hDepth, s'.toDiary, ?_⟩
    cases h
    simp only [Scopes.push, hBlocks]
    rfl

/-- A second beginning is refused before the stack is touched. -/
theorem beginScript_eq_some (h : s.beginScript = (s', some f)) :
    s' = s ∧ (∃ v, f = .violation v) ∧ s.scopes.depth ≠ 0 := by
  rw [beginScript] at h
  split at h
  · rename_i hDepth
    cases h
    exact ⟨rfl, ⟨_, rfl⟩, hDepth⟩
  · cases h

/-- The tool is set when there is none, an empty name counting as none. A tool that is not known is
only warned of. -/
theorem setTool_eq_none {name : Text} (h : setTool config s name pos = (s', none)) :
    s.tool = [] ∧ ∃ diary, s' = { s with tool := name, toolPos := pos, toDiary := diary } := by
  rw [setTool] at h
  split at h
  · cases h
  · rename_i hTool
    refine ⟨by simpa using hTool, ?_⟩
    split at h
    · cases h
      exact ⟨_, rfl⟩
    · cases h
      exact ⟨_, rfl⟩

/-- A second tool is refused at its place, and the first one stays. -/
theorem setTool_eq_some {name : Text} (h : setTool config s name pos = (s', some f)) :
    s' = s ∧ ∃ d, f = .diagnostic d ∧ d.IsErrorAt .duplicateDeclaration pos := by
  rw [setTool] at h
  split at h
  · cases h
    exact ⟨rfl, _, rfl, rfl, rfl, rfl⟩
  · split at h <;> cases h

/-- A source is always taken. -/
theorem addSource_eq (s : State) (name : Text) (pos : Pos) :
    ∃ diary, s.addSource name pos =
      ({ s with sources := s.sources ++ [name], toDiary := diary }, none) := by
  rw [addSource]
  split
  · exact ⟨_, rfl⟩
  · exact ⟨_, rfl⟩

/-- A switch is added to the innermost of the open blocks. -/
theorem addSwitch_eq_none {switch : Switch} (h : s.addSwitch switch = (s', none)) :
    ∃ b bs diary, s.scopes.blocks = b :: bs ∧
      s' = { s with scopes := ⟨b.push switch :: bs⟩, toDiary := diary } := by
  rw [addSwitch] at h
  split at h
  · cases h
  · rename_i scopes b hRegister
    obtain ⟨bs, hBlocks, rfl⟩ := Scopes.register_eq_ok hRegister
    cases h
    exact ⟨b, bs, _, hBlocks, rfl⟩

/-- Without an open block a switch is refused, which only a caller that has not begun the script can
bring about. -/
theorem addSwitch_eq_some {switch : Switch} (h : s.addSwitch switch = (s', some f)) :
    s' = s ∧ (∃ v, f = .violation v) ∧ s.scopes.depth = 0 := by
  rw [addSwitch] at h
  split at h
  · rename_i scopes v hRegister
    obtain ⟨hBlocks, rfl⟩ := Scopes.register_eq_error hRegister
    cases h
    exact ⟨rfl, ⟨_, rfl⟩, by rw [Scopes.depth, hBlocks]; rfl⟩
  · cases h

/-- An axis is declared under a name that neither registry has. -/
theorem declare_eq_none {kind : AxisKind} {name : Text} (h : s.declare kind name pos = (s', none)) :
    (s.otherRegistry kind).get? name = none ∧ (s.registry kind).get? name = none ∧
      ∃ diary, s' = { s.setRegistry kind
          ((s.registry kind).append { kind := (s.registry kind).kind, name, declared := pos }) with
        toDiary := diary } := by
  rw [declare] at h
  split at h
  · cases h
  · rename_i hOther
    split at h
    · cases h
    · rename_i r hDeclare
      obtain ⟨hNone, rfl⟩ := Registry.declare_eq_none hDeclare
      cases h
      exact ⟨hOther, hNone, _, rfl⟩

/-- A name of the other sort is looked for first, then one of the same sort. Either way the refusal
comes before anything is written. -/
theorem declare_eq_some {kind : AxisKind} {name : Text}
    (h : s.declare kind name pos = (s', some f)) :
    s' = s ∧ ∃ d, f = .diagnostic d ∧ d.IsErrorAt .duplicateDeclaration pos := by
  rw [declare] at h
  split at h
  · cases h
    exact ⟨rfl, _, rfl, rfl, rfl, rfl⟩
  · split at h
    · rename_i r f hDeclare
      obtain ⟨rfl, hRefusal⟩ := Registry.declare_eq_some hDeclare
      cases h
      exact ⟨s.setRegistry_registry kind, hRefusal⟩
    · cases h

/-- What the registry of the axis makes of the label is put back in its place; the other registry is
not touched. -/
theorem addLabel_eq_none {kind : AxisKind} {name label : Text}
    (h : s.addLabel kind name label pos = (s', none)) :
    ∃ a diary, (s.registry kind).get? name = some a ∧ isAllLabels label = false ∧
      a.hasLabel label = false ∧
      s' = { s.setRegistry kind ((s.registry kind).modify name (·.addBranch label)) with
        toDiary := diary } := by
  rw [addLabel] at h
  split at h
  · cases h
  · rename_i r hAdd
    obtain ⟨a, ha, hReserved, hNew, rfl⟩ := Registry.addLabel_eq_none hAdd
    cases h
    exact ⟨a, _, ha, hReserved, hNew, rfl⟩

/-- The registry that comes with a refusal is put back as well. Since it is the old one, the engine
is as it was. -/
theorem addLabel_eq_some {kind : AxisKind} {name label : Text}
    (h : s.addLabel kind name label pos = (s', some f)) :
    s' = s ∧ (((∃ v, f = .violation v) ∧ name ∉ (s.registry kind).names) ∨
      ∃ d, f = .diagnostic d ∧ (d.IsErrorAt .reservedLabel pos ∨ d.IsErrorAt .duplicateLabel pos)) := by
  rw [addLabel] at h
  split at h
  · rename_i r f hAdd
    obtain ⟨rfl, hRefusal⟩ := Registry.addLabel_eq_some hAdd
    cases h
    exact ⟨s.setRegistry_registry kind, hRefusal⟩
  · cases h

/-- A default that is taken changes its axis in its registry and nothing else but the diary. -/
theorem setDefault_eq_none {kind : AxisKind} {name label : Text}
    (h : s.setDefault kind name label pos = (s', none)) :
    ∃ a diary, (s.registry kind).get? name = some a ∧ a.hasLabel label = true ∧
      s' = { s.setRegistry kind ((s.registry kind).modify name ({ · with default := label })) with
        toDiary := diary } := by
  rw [setDefault] at h
  split at h
  · cases h
  · rename_i r hSet
    obtain ⟨a, ha, hLabel, rfl⟩ := Registry.setDefault_eq_none hSet
    cases h
    exact ⟨a, _, ha, hLabel, rfl⟩

/-- As for labels, the registry that comes back with a refusal is the one there was. -/
theorem setDefault_eq_some {kind : AxisKind} {name label : Text}
    (h : s.setDefault kind name label pos = (s', some f)) :
    s' = s ∧ (((∃ v, f = .violation v) ∧ name ∉ (s.registry kind).names) ∨
      ∃ a d, (s.registry kind).get? name = some a ∧ a.hasLabel label = false ∧ f = .diagnostic d ∧
        d.Rejects .labelNotInChoice pos label a.labels) := by
  rw [setDefault] at h
  split at h
  · rename_i r f hSet
    obtain ⟨rfl, hRefusal⟩ := Registry.setDefault_eq_some hSet
    cases h
    exact ⟨s.setRegistry_registry kind, hRefusal⟩
  · cases h

/-- A case statement finds no subject exactly when its name is in neither registry. -/
theorem axis?_eq_none_iff {name : Text} :
    s.axis? name = none ↔ name ∉ s.choices.names ++ s.inputs.names := by
  rw [List.mem_append, not_or, ← Registry.get?_eq_none_iff, ← Registry.get?_eq_none_iff, axis?]
  cases s.choices.get? name <;> simp

/-- The subject is marked as used before the statement is opened over it. A choice is found before
an input axis of the same name. -/
theorem beginCase_eq_none {subject : Text} (h : s.beginCase subject pos = (s', none)) :
    ∃ a diary, s.axis? subject = some a ∧
      s' = { s.setRegistry a.kind
          ((s.registry a.kind).modify subject ({ · with usedInCase := true })) with
        cases := .start a pos :: s.cases, toDiary := diary } := by
  rw [beginCase] at h
  split at h
  · cases h
  · rename_i a ha
    refine ⟨a, s'.toDiary, ha, ?_⟩
    cases h
    cases a.kind <;> rfl

/-- A case statement over an unknown name is refused before anything is marked, with the nearest of
all declared names. -/
theorem beginCase_eq_some {subject : Text} (h : s.beginCase subject pos = (s', some f)) :
    s' = s ∧ ∃ d, f = .diagnostic d ∧ subject ∉ s.choices.names ++ s.inputs.names ∧
      d.Rejects .unknownName pos subject (s.choices.names ++ s.inputs.names) := by
  rw [beginCase] at h
  split at h
  · rename_i hNone
    cases h
    exact ⟨rfl, _, rfl, axis?_eq_none_iff.mp hNone, ⟨rfl, rfl, rfl⟩, rfl⟩
  · cases h

/-- An alternative is opened in the innermost statement and gets a block named for the subject. -/
theorem beginAlternative_eq_none (h : s.beginAlternative = (s', none)) :
    ∃ c cs diary, s.cases = c :: cs ∧ c.closed = false ∧ c.inAlternative = false ∧
      s' = { s with
        cases := { c with current := [], inAlternative := true } :: cs
        scopes := s.scopes.push (c.subject ++ " alternative"), toDiary := diary } := by
  rw [beginAlternative] at h
  split at h
  · cases h
  · rename_i c hCurrent
    split at h
    · cases h
    · rename_i c' hBegin
      obtain ⟨hClosed, hOpen, rfl⟩ := CaseCheck.beginAlternative_eq_none hBegin
      cases h
      exact ⟨c, _, _, currentCase_eq_ok hCurrent, hClosed, hOpen, rfl⟩

/-- Without an open statement, or in one that cannot take an alternative, the refusal comes before
the block is pushed. -/
theorem beginAlternative_eq_some (h : s.beginAlternative = (s', some f)) :
    s' = s ∧ (∃ v, f = .violation v) ∧
      ∀ c cs, s.cases = c :: cs → c.closed = true ∨ c.inAlternative = true := by
  rw [beginAlternative] at h
  split at h
  · rename_i v hCurrent
    cases h
    refine ⟨rfl, ⟨_, rfl⟩, fun c cs hCases => ?_⟩
    rw [currentCase_eq_error hCurrent] at hCases
    cases hCases
  · rename_i c hCurrent
    split at h
    · rename_i c' f hBegin
      obtain ⟨rfl, hBroken, hShut⟩ := CaseCheck.beginAlternative_eq_some hBegin
      cases h
      refine ⟨setCurrentCase_self hCurrent, hBroken, fun d cs hCases => ?_⟩
      rw [currentCase_eq_ok hCurrent] at hCases
      cases hCases
      exact hShut
    · cases h

/-- The label is checked against the subject as it is now, not as it was when the statement began.
-/
theorem addAlternativeLabel_eq_none {label : Text}
    (h : s.addAlternativeLabel label pos = (s', none)) :
    ∃ c cs diary, s.cases = c :: cs ∧ c.inAlternative = true ∧
      (s.subjectOf c).hasLabel label = true ∧ label ∉ c.used ∧
      s' = { s with
        cases := { c with used := c.used ++ [label], current := c.current ++ [label] } :: cs
        toDiary := diary } := by
  rw [addAlternativeLabel] at h
  split at h
  · cases h
  · rename_i c hCurrent
    split at h
    · cases h
    · rename_i c' hAdd
      obtain ⟨hOpen, hLabel, hNew, rfl⟩ := CaseCheck.addLabel_eq_none hAdd
      cases h
      exact ⟨c, _, _, currentCase_eq_ok hCurrent, hOpen, hLabel, hNew, rfl⟩

/-- A label is refused without a change: there is no open alternative, the subject does not have the
label, or it was used before. -/
theorem addAlternativeLabel_eq_some {label : Text}
    (h : s.addAlternativeLabel label pos = (s', some f)) :
    s' = s ∧ (((∃ v, f = .violation v) ∧ ∀ c cs, s.cases = c :: cs → c.inAlternative = false) ∨
      ∃ c cs d, s.cases = c :: cs ∧ f = .diagnostic d ∧
        ((s.subjectOf c).hasLabel label = false ∧
            d.Rejects .unknownLabel pos label (s.subjectOf c).labels ∨
          d.IsErrorAt .duplicateLabelInCase pos)) := by
  rw [addAlternativeLabel] at h
  split at h
  · rename_i v hCurrent
    cases h
    refine ⟨rfl, Or.inl ⟨⟨_, rfl⟩, fun c cs hCases => ?_⟩⟩
    rw [currentCase_eq_error hCurrent] at hCases
    cases hCases
  · rename_i c hCurrent
    have hCases := currentCase_eq_ok hCurrent
    split at h
    · rename_i c' f hAdd
      obtain ⟨rfl, hRefusal⟩ := CaseCheck.addLabel_eq_some hAdd
      cases h
      refine ⟨setCurrentCase_self hCurrent, ?_⟩
      rcases hRefusal with ⟨hBroken, hOpen⟩ | ⟨d, hFailure, hLabel⟩
      · refine Or.inl ⟨hBroken, fun e cs hCases' => ?_⟩
        rw [hCases] at hCases'
        cases hCases'
        exact hOpen
      · exact Or.inr ⟨_, _, d, hCases, hFailure, hLabel⟩
    · cases h

/-- All that the end of an alternative can do. It is refused at once, or the alternative is closed and
refused for want of a block of its own, or the block is closed too and its labels are enriched, up
to the first that has no block. -/
theorem endAlternative_cases (s : State) :
    (∃ v, s.endAlternative = (s, some (.violation v)) ∧
        ∀ c cs, s.cases = c :: cs → c.inAlternative = false ∨ c.current = []) ∨
      ∃ c cs, s.cases = c :: cs ∧ c.inAlternative = true ∧ c.current ≠ [] ∧
        (s.scopes.depth ≤ 1 ∧ (∃ v, s.endAlternative =
            ({ s with cases := { c with inAlternative := false } :: cs }, some (.violation v))) ∨
          ∃ b b' bs diary, s.scopes.blocks = b :: b' :: bs ∧ s.endAlternative =
            ({ s.setRegistry c.kind
                ((s.registry c.kind).modify c.subject (·.enrich c.current b)) with
              cases := { c with inAlternative := false } :: cs
              scopes := ⟨b' :: bs⟩, toDiary := diary },
              ((s.subjectOf c).blocks.absorb b c.current).2.map .violation)) := by
  cases hCurrent : s.currentCase with
  | error v =>
      refine Or.inl ⟨v, by rw [endAlternative, hCurrent], fun c cs hCases => ?_⟩
      rw [currentCase_eq_error hCurrent] at hCases
      cases hCases
  | ok c =>
      have hCases := currentCase_eq_ok hCurrent
      rcases hEnd : c.endAlternative with ⟨c', _ | f⟩
      · obtain ⟨hOpen, hLabels, rfl⟩ := CaseCheck.endAlternative_eq_none hEnd
        refine Or.inr ⟨c, s.cases.tail, hCases, hOpen, hLabels, ?_⟩
        rcases hPop : s.scopes.pop with ⟨scopes, v | b⟩
        · obtain ⟨hDepth, rfl⟩ := Scopes.pop_eq_error hPop
          refine Or.inl ⟨hDepth, v, ?_⟩
          simp only [endAlternative, hCurrent, hEnd, setCurrentCase, hPop]
        · obtain ⟨b', bs, hBlocks, rfl⟩ := Scopes.pop_eq_ok hPop
          refine Or.inr ⟨b, b', bs, ?_⟩
          simp only [endAlternative, hCurrent, hEnd, setCurrentCase, hPop]
          -- The subject is looked up after the alternative is closed, and is the same as before.
          have hSubject : subjectOf { s with
              cases := { c with inAlternative := false } :: s.cases.tail, scopes := ⟨b' :: bs⟩ }
                { c with inAlternative := false } = s.subjectOf c := by
            rw [subjectOf, subjectOf]
            cases c.kind <;> rfl
          rw [hSubject]
          cases ((s.subjectOf c).blocks.absorb b c.current).2 with
          | none => cases c.kind <;> exact ⟨_, hBlocks, rfl⟩
          | some v => cases c.kind <;> exact ⟨s.toDiary, hBlocks, rfl⟩
      · obtain ⟨rfl, ⟨v, rfl⟩, hShut⟩ := CaseCheck.endAlternative_eq_some hEnd
        refine Or.inl ⟨v, ?_, fun d cs hCases' => ?_⟩
        · simp only [endAlternative, hCurrent, hEnd, setCurrentCase_self hCurrent]
        · rw [hCases] at hCases'
          cases hCases'
          exact hShut

/-- When all goes well, the alternative is closed, its block is popped and its switches go to the
block of each of its labels. -/
theorem endAlternative_eq_none (h : s.endAlternative = (s', none)) :
    ∃ c cs b b' bs diary, s.cases = c :: cs ∧ c.inAlternative = true ∧ c.current ≠ [] ∧
      s.scopes.blocks = b :: b' :: bs ∧
      s' = { s.setRegistry c.kind
          ((s.registry c.kind).modify c.subject (·.enrich c.current b)) with
        cases := { c with inAlternative := false } :: cs
        scopes := ⟨b' :: bs⟩, toDiary := diary } := by
  rcases s.endAlternative_cases with ⟨v, hEnd, -⟩ | ⟨c, cs, hCases, hOpen, hLabels, hRest⟩
  · rw [hEnd] at h
    cases h
  · rcases hRest with ⟨-, v, hEnd⟩ | ⟨b, b', bs, diary, hBlocks, hEnd⟩
    · rw [hEnd] at h
      cases h
    · rw [hEnd] at h
      exact ⟨c, cs, b, b', bs, diary, hCases, hOpen, hLabels, hBlocks, (Prod.mk.inj h).1.symm⟩

/-- The innermost statement is dropped, and the engine remembers that there was one, and whether it
was over a choice. -/
theorem endCase_eq_none (h : s.endCase pos = (s', none)) :
    ∃ c cs diary, s.cases = c :: cs ∧ c.inAlternative = false ∧ c.closed = false ∧
      c.unusedLabels (s.subjectOf c) = [] ∧
      s' = { s with
        cases := cs
        caseOccurred := true
        choiceCaseOccurred := s.choiceCaseOccurred || c.kind == AxisKind.choice
        toDiary := diary } := by
  rw [endCase] at h
  split at h
  · cases h
  · rename_i c hCurrent
    split at h
    · cases h
    · rename_i c' hClose
      obtain ⟨hOpen, hClosed, hUnused, rfl⟩ := CaseCheck.close_eq_none hClose
      cases h
      exact ⟨c, _, _, currentCase_eq_ok hCurrent, hOpen, hClosed, hUnused, rfl⟩

/-- The end of a case statement is refused for a broken contract, which changes nothing, or for
labels that are missing, which marks the statement as closed. -/
theorem endCase_eq_some (h : s.endCase pos = (s', some f)) :
    (s' = s ∧ (∃ v, f = .violation v) ∧
        ∀ c cs, s.cases = c :: cs → c.inAlternative = true ∨ c.closed = true) ∨
      ∃ c cs, s.cases = c :: cs ∧ c.inAlternative = false ∧ c.closed = false ∧
        c.unusedLabels (s.subjectOf c) ≠ [] ∧
        f = .diagnostic (c.incomplete (c.unusedLabels (s.subjectOf c)) pos) ∧
        s' = { s with cases := { c with closed := true } :: cs } := by
  rw [endCase] at h
  split at h
  · rename_i v hCurrent
    cases h
    refine Or.inl ⟨rfl, ⟨v, rfl⟩, fun c cs hCases => ?_⟩
    rw [currentCase_eq_error hCurrent] at hCases
    cases hCases
  · rename_i c hCurrent
    have hCases := currentCase_eq_ok hCurrent
    split at h
    · rename_i c' g hClose
      cases h
      rcases CaseCheck.close_eq_some hClose with
        ⟨rfl, hBroken, hShut⟩ | ⟨hOpen, hClosed, hUnused, hFailure, rfl⟩
      · refine Or.inl ⟨setCurrentCase_self hCurrent, hBroken, fun d cs hCases' => ?_⟩
        rw [hCases] at hCases'
        cases hCases'
        exact hShut
      · exact Or.inr ⟨c, s.cases.tail, hCases, hOpen, hClosed, hUnused, hFailure, rfl⟩
    · cases h

/-- A select statement that is taken is the resolver's affair alone. -/
theorem select_eq_none {choice label : Text} (h : select config s choice label pos = (s', none)) :
    ∃ r, s.toResolver.selectInScript config.directives choice label pos = (r, none) ∧
      s' = { s with toResolver := r } := by
  rw [select] at h
  split at h
  · cases h
  · rename_i r hSelect
    cases h
    exact ⟨r, hSelect, rfl⟩

/-- The resolver that comes with a refusal is the old one, so the engine is as it was. -/
theorem select_eq_some {choice label : Text} (h : select config s choice label pos = (s', some f)) :
    s' = s ∧ ∃ d, f = .diagnostic d ∧ s.toResolver.Refuses choice label pos d := by
  rw [select] at h
  split at h
  · rename_i r d hSelect
    obtain ⟨rfl, hRefuses⟩ := Resolver.selectInScript_eq_some hSelect
    cases h
    exact ⟨rfl, d, rfl, hRefuses⟩
  · cases h

/-- Every check of an event comes before its first change, with three exceptions: an event other than
the end of an alternative, of a case statement or of the script that is refused leaves the state as it
was, warnings and journal included. -/
theorem take_refused {e : Event} (h : s.take config e pos = (s', some f))
    (hEvent : e ≠ .endAlternative ∧ e ≠ .endCase ∧ e ≠ .endScript) : s' = s := by
  cases e with
  | beginScript => exact (beginScript_eq_some h).1
  | setTool name => exact (setTool_eq_some h).1
  | addSource name =>
      obtain ⟨diary, hSource⟩ := addSource_eq s name pos
      cases hSource.symm.trans h
  | addSwitch switch => exact (addSwitch_eq_some h).1
  | declare kind name => exact (declare_eq_some h).1
  | addLabel kind name label => exact (addLabel_eq_some h).1
  | setDefault kind name label => exact (setDefault_eq_some h).1
  | beginCase subject => exact (beginCase_eq_some h).1
  | beginAlternative => exact (beginAlternative_eq_some h).1
  | addAlternativeLabel label => exact (addAlternativeLabel_eq_some h).1
  | endAlternative => exact absurd rfl hEvent.1
  | endCase => exact absurd rfl hEvent.2.1
  | select choice label => exact (select_eq_some h).1
  | endScript => exact absurd rfl hEvent.2.2

end State

end Runsheet
