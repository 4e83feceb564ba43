import Runsheet.Proofs.Engine.Resolution

/-! What single statements set and the end of a script reads back: the tool, the sources, and the
defaults of axes. Each of them is told from the events that were taken, whatever was refused between
them and whether or not the script has ended. An empty tool and an empty default are set like any
other, but read back they are none. -/
namespace Runsheet

namespace History

/-- The tools that are set, in order. -/
def tools (events : List Event) : List Text := events.filterMap fun
  | .setTool name => some name
  | _ => none

/-- The input sources, in order. -/
def sources (events : List Event) : List Text := events.filterMap fun
  | .addSource name => some name
  | _ => none

/-- The defaults that an axis is given, in order. -/
def defaults (kind : AxisKind) (name : Text) (events : List Event) : List Text :=
  events.filterMap fun
  | .setDefault k n label => if k = kind ∧ n = name then some label else none
  | _ => none

/-- The tools that are named. The empty one names none. -/
def namedTools (events : List Event) : List Text := (tools events).filter (!·.isEmpty)

/-- Whether an event sets the tool, a source or a default. -/
def assigns : Event → Bool
  | .setTool _ | .addSource _ | .setDefault .. => true
  | _ => false

section concat

variable {e : Event} (events : List Event)

/-- Only a tool statement names a tool; any other event leaves the list of named tools alone. -/
theorem tools_concat (h : ∀ name, e ≠ .setTool name) : tools (events ++ [e]) = tools events := by
  rw [tools, List.filterMap_append]
  cases e with
  | setTool name => exact absurd rfl (h name)
  | _ => exact List.append_nil _

/-- Only an input statement names a source, and it does so whether or not the source was named
before. -/
theorem sources_concat (h : ∀ name, e ≠ .addSource name) :
    sources (events ++ [e]) = sources events := by
  rw [sources, List.filterMap_append]
  cases e with
  | addSource name => exact absurd rfl (h name)
  | _ => exact List.append_nil _

/-- Only a default clause sets a default, be it of the axis in question or of another. -/
theorem defaults_concat (h : ∀ kind name label, e ≠ .setDefault kind name label) (kind : AxisKind)
    (name : Text) : defaults kind name (events ++ [e]) = defaults kind name events := by
  rw [defaults, List.filterMap_append]
  cases e with
  | setDefault kind name label => exact absurd rfl (h kind name label)
  | _ => exact List.append_nil _

theorem tools_setTool (name : Text) : tools (events ++ [.setTool name]) = tools events ++ [name] :=
  List.filterMap_append

theorem sources_addSource (name : Text) :
    sources (events ++ [.addSource name]) = sources events ++ [name] :=
  List.filterMap_append

/-- A default counts for the one axis it was set for. Sort and name have to agree, since both sorts
have registries of their own. -/
theorem defaults_setDefault (kind kind' : AxisKind) (name name' label : Text) :
    defaults kind name (events ++ [.setDefault kind' name' label]) =
      defaults kind name events ++ if kind' = kind ∧ name' = name then [label] else [] := by
  rw [defaults, List.filterMap_append]
  split <;> simp_all [defaults]

end concat

end History

namespace Registry

variable {r r' : Registry} {name : Text} {f : Axis → Axis}

/-- The default of the axis with a name, empty if there is no such axis. -/
def defaultOf (r : Registry) (name : Text) : Text := ((r.get? name).map Axis.default).getD []

theorem defaultOf_eq {a : Axis} (h : r.get? name = some a) : r.defaultOf name = a.default := by
  simp [defaultOf, h]

/-- Selecting labels leaves the defaults alone, so directives and select statements may be passed
over here. -/
theorem SameButSelected.defaultOf_eq (h : r.SameButSelected r') (name : Text) :
    r'.defaultOf name = r.defaultOf name := by
  rw [defaultOf, h.map_get? (fun _ => rfl), defaultOf]

/-- An update that keeps names and defaults keeps the default under every name. -/
theorem defaultOf_modify (r : Registry) (name : Text) (hName : ∀ a, (f a).name = a.name)
    (hDefault : ∀ a, (f a).default = a.default) (other : Text) :
    (r.modify name f).defaultOf other = r.defaultOf other := by
  rw [defaultOf, map_get?_modify r name hName hDefault, defaultOf]

/-- A new default comes in place of the one that the axis had. -/
theorem defaultOf_setDefault {a : Axis} (h : r.get? name = some a) (label other : Text) :
    (r.modify name ({ · with default := label })).defaultOf other =
      if name = other then label else r.defaultOf other := by
  rw [defaultOf, get?_modify r name (f := ({ · with default := label })) fun _ => rfl, defaultOf]
  by_cases hSame : name = other
  · subst hSame
    simp [h]
  · simp [hSame, Ne.symm hSame]

/-- An axis without a default gives no name one. -/
theorem defaultOf_append (r : Registry) {a : Axis} (ha : a.default = []) (name : Text) :
    (r.append a).defaultOf name = r.defaultOf name := getD_get?_append r ha name

end Registry

namespace State

open History

variable {config : Config} {s s' : State} {e : Event} {pos : Pos} {events : List Event}

/-- The engine holds what the events set: the last tool, before which only empty ones were set, all
sources, and the last default of each axis. -/
structure Assigned (events : List Event) (s : State) : Prop where
  tool : s.tool = (tools events).getLastD []
  unnamed : ∀ name ∈ (tools events).dropLast, name = []
  sources : s.sources = History.sources events
  default : ∀ kind name,
    (s.registry kind).defaultOf name = (defaults kind name events).getLastD []

namespace Assigned

theorem empty : Assigned [] {} where
  tool := rfl
  unnamed := nofun
  sources := rfl
  default := by
    intro kind name
    cases kind <;> rfl

/-- Only the tool, the sources and the defaults matter. -/
theorem congr (h : Assigned events s) (hTool : s'.tool = s.tool) (hSources : s'.sources = s.sources)
    (hDefault : ∀ kind name,
      (s'.registry kind).defaultOf name = (s.registry kind).defaultOf name) :
    Assigned events s' where
  tool := hTool.trans h.tool
  unnamed := h.unnamed
  sources := hSources.trans h.sources
  default := fun kind name => (hDefault kind name).trans (h.default kind name)

/-- The same tool, sources and registries are enough. -/
theorem of_fields (h : Assigned events s) (hTool : s'.tool = s.tool)
    (hSources : s'.sources = s.sources) (hChoices : s'.choices = s.choices)
    (hInputs : s'.inputs = s.inputs) : Assigned events s' := by
  refine h.congr hTool hSources fun kind name => ?_
  cases kind <;> simp only [State.registry, hChoices, hInputs]

/-- Other events set nothing. -/
theorem silent (h : Assigned events s) (he : assigns e = false) : Assigned (events ++ [e]) s := by
  have hTools : tools (events ++ [e]) = tools events :=
    tools_concat events fun name hSet => by rw [hSet] at he; cases he
  have hSources : History.sources (events ++ [e]) = History.sources events :=
    sources_concat events fun name hAdd => by rw [hAdd] at he; cases he
  have hDefaults := defaults_concat events fun kind name label (hSet : e = _) => by
    rw [hSet] at he
    cases he
  constructor
  · rw [hTools]
    exact h.tool
  · rw [hTools]
    exact h.unnamed
  · rw [hSources]
    exact h.sources
  · intro kind name
    rw [hDefaults]
    exact h.default kind name

/-- An update of a registry that leaves the defaults alone. -/
theorem setRegistry {r : Registry} (h : Assigned events s) (kind : AxisKind)
    (hDefault : ∀ name, r.defaultOf name = (s.registry kind).defaultOf name) :
    Assigned events (s.setRegistry kind r) := by
  refine h.congr (by cases kind <;> rfl) (by cases kind <;> rfl) fun other name => ?_
  cases kind <;> cases other <;> first | exact hDefault name | rfl

/-- An update of an axis that keeps its name and its default. -/
theorem modify {f : Axis → Axis} (h : Assigned events s) (kind : AxisKind) (name : Text)
    (hName : ∀ a, (f a).name = a.name) (hDefault : ∀ a, (f a).default = a.default) :
    Assigned events (s.setRegistry kind ((s.registry kind).modify name f)) :=
  h.setRegistry kind ((s.registry kind).defaultOf_modify name hName hDefault)

/-- A new axis, which has no default yet. -/
theorem append {a : Axis} (h : Assigned events s) (kind : AxisKind) (ha : a.default = []) :
    Assigned events (s.setRegistry kind ((s.registry kind).append a)) :=
  h.setRegistry kind ((s.registry kind).defaultOf_append ha)

/-- Selections set nothing. -/
theorem withResolver {r : Resolver} (h : Assigned events s)
    (hSame : s.choices.SameButSelected r.choices) : Assigned events { s with toResolver := r } := by
  refine h.congr rfl rfl fun kind name => ?_
  cases kind with
  | choice => exact hSame.defaultOf_eq name
  | input => rfl

/-- A tool that is taken was the first one, unless those before it had no name and so were
forgotten. -/
theorem setTool {name : Text} (h : Assigned events s)
    (hSet : State.setTool config s name pos = (s', none)) : Assigned (events ++ [.setTool name]) s' := by
  obtain ⟨hTool, diary, rfl⟩ := setTool_eq_none hSet
  constructor
  · rw [tools_setTool, List.getLastD_concat]
  · rw [tools_setTool, List.dropLast_concat]
    intro other hOther
    -- The tool was empty, so the last one set before was, as were all others.
    have hNone : tools events ≠ [] := List.ne_nil_of_mem hOther
    rw [← List.dropLast_concat_getLast hNone, List.mem_append, List.mem_singleton] at hOther
    rcases hOther with hOther | rfl
    · exact h.unnamed other hOther
    · rw [← hTool, h.tool, List.getLastD_eq_getLast?, List.getLast?_eq_some_getLast hNone]
      rfl
  · rw [sources_concat events (by simp)]
    exact h.sources
  · intro kind other
    rw [defaults_concat events (by simp)]
    exact h.default kind other

/-- Every source is kept, in order and with repetitions, whatever was told about it on the way. -/
theorem addSource (h : Assigned events s) (name : Text) (diary : Diary) :
    Assigned (events ++ [.addSource name])
      { s with sources := s.sources ++ [name], toDiary := diary } := by
  constructor
  · rw [tools_concat events (by simp)]
    exact h.tool
  · rw [tools_concat events (by simp)]
    exact h.unnamed
  · rw [sources_addSource, ← h.sources]
  · intro kind other
    rw [defaults_concat events (by simp)]
    exact h.default kind other

/-- A default replaces the one before it, so the last that was set for an axis is the one it has. -/
theorem setDefault {kind : AxisKind} {name label : Text} (h : Assigned events s)
    (hSet : s.setDefault kind name label pos = (s', none)) :
    Assigned (events ++ [.setDefault kind name label]) s' := by
  obtain ⟨a, diary, ha, -, rfl⟩ := setDefault_eq_none hSet
  constructor
  · rw [tools_concat events (by simp)]
    cases kind <;> exact h.tool
  · rw [tools_concat events (by simp)]
    exact h.unnamed
  · rw [sources_concat events (by simp)]
    cases kind <;> exact h.sources
  · intro kind' name'
    rw [defaults_setDefault]
    by_cases hSame : kind = kind' ∧ name = name'
    · obtain ⟨rfl, rfl⟩ := hSame
      rw [if_pos ⟨rfl, rfl⟩, List.getLastD_concat]
      have hNew := Registry.defaultOf_setDefault ha label name
      rw [if_pos rfl] at hNew
      cases kind <;> exact hNew
    · rw [if_neg hSame, List.append_nil, ← h.default]
      have hOld := Registry.defaultOf_setDefault ha label name'
      by_cases hName : name = name'
      · have hKind : kind ≠ kind' := fun hKind => hSame ⟨hKind, hName⟩
        cases kind <;> cases kind' <;> first | exact absurd rfl hKind | rfl
      · rw [if_neg hName] at hOld
        cases kind <;> cases kind' <;> first | exact hOld | rfl

/-- Every event that is taken. -/
theorem take (h : Assigned events s) (hTake : s.take config e pos = (s', none)) :
    Assigned (events ++ [e]) s' := by
  cases e with
  | setTool name => exact h.setTool hTake
  | addSource name =>
      obtain ⟨diary, hSource⟩ := addSource_eq s name pos
      simp only [State.take, hSource, Prod.mk.injEq, and_true] at hTake
      subst hTake
      exact h.addSource name diary
  | setDefault kind name label => exact h.setDefault hTake
  | beginScript =>
      obtain ⟨-, diary, rfl⟩ := beginScript_eq_none hTake
      exact (h.silent rfl).of_fields rfl rfl rfl rfl
  | addSwitch switch =>
      obtain ⟨b, bs, diary, -, rfl⟩ := addSwitch_eq_none hTake
      exact (h.silent rfl).of_fields rfl rfl rfl rfl
  | declare kind name =>
      obtain ⟨-, -, diary, rfl⟩ := declare_eq_none hTake
      exact ((h.append kind rfl).silent rfl).of_fields rfl rfl rfl rfl
  | addLabel kind name label =>
      obtain ⟨a, diary, -, -, -, rfl⟩ := addLabel_eq_none hTake
      have hAdded := h.modify kind name (f := (·.addBranch label)) (fun _ => rfl) fun _ => rfl
      exact (hAdded.silent rfl).of_fields rfl rfl rfl rfl
  | beginCase subject =>
      obtain ⟨a, diary, -, rfl⟩ := beginCase_eq_none hTake
      have hMarked := h.modify a.kind subject (f := ({ · with usedInCase := true })) (fun _ => rfl)
        fun _ => rfl
      exact (hMarked.silent rfl).of_fields rfl rfl rfl rfl
  | beginAlternative =>
      obtain ⟨c, cs, diary, -, -, -, rfl⟩ := beginAlternative_eq_none hTake
      exact (h.silent rfl).of_fields rfl rfl rfl rfl
  | addAlternativeLabel label =>
      obtain ⟨c, cs, diary, -, -, -, -, rfl⟩ :=
        addAlternativeLabel_eq_none hTake
      exact (h.silent rfl).of_fields rfl rfl rfl rfl
  | endAlternative =>
      obtain ⟨c, cs, b, b', bs, diary, -, -, -, -, rfl⟩ := endAlternative_eq_none hTake
      have hEnriched := h.modify c.kind c.subject (f := (·.enrich c.current b)) (fun _ => rfl)
        fun _ => rfl
      exact (hEnriched.silent rfl).of_fields rfl rfl rfl rfl
  | endCase =>
      obtain ⟨c, cs, diary, -, -, -, -, rfl⟩ := endCase_eq_none hTake
      exact (h.silent rfl).of_fields rfl rfl rfl rfl
  | select choice label =>
      obtain ⟨r, hSelect, rfl⟩ := select_eq_none hTake
      exact (h.silent rfl).withResolver (Resolver.selectInScript_spec hSelect).1
  | endScript =>
      obtain ⟨-, -, r, sources, plan, diary, hSame, -, -, -, rfl⟩ := endScript_eq_none hTake
      exact ((h.silent rfl).withResolver hSame).of_fields rfl rfl rfl rfl

/-- A call that is refused sets nothing. -/
theorem refused (h : Assigned events s) (hRefused : Refused s e s') : Assigned events s' := by
  cases hRefused with
  | unchanged => exact h
  | closed => exact h.of_fields rfl rfl rfl rfl
  | withoutBlock => exact h.of_fields rfl rfl rfl rfl
  | @withoutTarget c cs b b' bs diary =>
      have hEnriched := h.modify c.kind c.subject (f := (·.enrich c.current b)) (fun _ => rfl)
        fun _ => rfl
      exact hEnriched.of_fields rfl rfl rfl rfl
  | ended _ hSame => exact (h.withResolver hSame).of_fields rfl rfl rfl rfl

end Assigned

/-- After any calls, taken or refused, the engine holds what the taken events set. -/
theorem assigned_after (config : Config) (calls : List Call) :
    Assigned (accepted config {} calls) (after config {} calls) := by
  induction calls using List.reverseRecOn with
  | nil => exact .empty
  | append_singleton calls c ih =>
      rw [after_append, accepted_append]
      cases hTake : (after config {} calls).take config c.1 c.2 with
      | mk s' failure =>
          have hAfter : after config (after config {} calls) [c] = s' := congrArg Prod.fst hTake
          rw [hAfter]
          cases failure with
          | some f => simpa [accepted, step, hTake] using ih.refused (refused_of_take hTake)
          | none => simpa [accepted, step, hTake] using ih.take hTake

/-- A tool is named if and only if the engine has one, and it is that one. -/
theorem Assigned.namedTools_eq (h : Assigned events s) :
    namedTools events = if s.tool = [] then [] else [s.tool] := by
  have hTool := h.tool
  have hUnnamed := h.unnamed
  rw [namedTools]
  rcases List.eq_nil_or_concat (tools events) with hNone | ⟨before, last, hTools⟩
  · rw [hNone] at hTool ⊢
    rw [hTool]
    rfl
  · rw [hTools, List.concat_eq_append, List.getLastD_concat] at hTool
    rw [hTools, List.concat_eq_append, List.dropLast_concat] at hUnnamed
    have hBefore : before.filter (!·.isEmpty) = [] :=
      List.filter_eq_nil_iff.mpr fun name hName => by simp [hUnnamed name hName]
    rw [hTools, List.concat_eq_append, List.filter_append, hBefore, hTool]
    by_cases hLast : last = [] <;> simp [hLast]

end State

end Runsheet
