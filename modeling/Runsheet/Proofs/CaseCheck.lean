import Mathlib.Data.List.Induction
import Mathlib.Data.List.Nodup
import Mathlib.Data.List.Perm.Subperm
import Runsheet.Proofs.Engine.Steps

/-! Exhaustive case statements. The labels that the alternatives of a statement name, in order, are
held against those of its subject: up to the first that is unknown or comes again they are used one
after the other, and at the end none may be left. -/
namespace Runsheet

namespace CaseCheck

/-- What is done to an open case statement. -/
inductive Call
  | beginAlternative
  | addLabel (label : Text) (pos : Pos)
  | endAlternative
  | close (pos : Pos)
  deriving DecidableEq, Repr

namespace Call

def alternative (group : List (Text × Pos)) : List Call :=
  beginAlternative :: group.map (fun l => addLabel l.1 l.2) ++ [endAlternative]

def statement (groups : List (List (Text × Pos))) (closing : Pos) : List Call :=
  groups.flatMap alternative ++ [close closing]

def label? : Call → Option Text
  | addLabel label _ => some label
  | _ => none

/-- The labels that calls add, in order. -/
def labels (calls : List Call) : List Text := calls.filterMap label?

end Call

variable {subject : Axis} {c c' : CaseCheck} {opened closing : Pos}

/-- The statement after a call, and why the call fails, if it does. -/
def step (subject : Axis) (c : CaseCheck) : Call → CaseCheck × Option Failure
  | .beginAlternative => c.beginAlternative
  | .addLabel label pos => c.addLabel subject label pos
  | .endAlternative => c.endAlternative
  | .close pos => c.close subject pos

def run (subject : Axis) (c : CaseCheck) : List Call → CaseCheck × Option Failure
  | [] => (c, none)
  | call :: calls =>
    match c.step subject call with
    | (c', none) => run subject c' calls
    | (c', some failure) => (c', some failure)

/-- Labels that can be used in turn: each is one of the subject's, and none comes twice. -/
structure Fits (subject : Axis) (labels : List Text) : Prop where
  declared : labels ⊆ subject.labels
  nodup : labels.Nodup

/-- How a case statement ends whose alternatives name these labels, in order. -/
inductive Verdict (subject : Axis) (opened closing : Pos) (occurring : List (Text × Pos)) :
    Option Failure → Prop
  | exhaustive (hAll : (occurring.map Prod.fst).Perm subject.labels) :
      Verdict subject opened closing occurring none
  | unknown {before after : List (Text × Pos)} {label : Text} {pos : Pos}
      (hSplit : occurring = before ++ (label, pos) :: after) (hBefore : Fits subject (before.map Prod.fst))
      (hUnknown : label ∉ subject.labels) :
      Verdict subject opened closing occurring <| some <| .diagnostic
        { kind := .unknownLabel, pos
          text := "label '" ++ label ++ "' is not a label of " ++ (start subject opened).subjectCalled
          suggestion := Suggestion.closest label subject.labels }
  | repeated {before after : List (Text × Pos)} {label : Text} {pos : Pos}
      (hSplit : occurring = before ++ (label, pos) :: after) (hBefore : Fits subject (before.map Prod.fst))
      (hUsed : label ∈ before.map Prod.fst) :
      Verdict subject opened closing occurring <| some <| .diagnostic
        { kind := .duplicateLabelInCase, pos
          text := "label '" ++ label ++ "' occurs more than once in case statement over " ++
            (start subject opened).subjectCalled }
  | incomplete (hFits : Fits subject (occurring.map Prod.fst))
      (hMissing : ∃ label ∈ subject.labels, label ∉ occurring.map Prod.fst) :
      Verdict subject opened closing occurring <| some <| .diagnostic <|
        (start subject opened).incomplete
          (subject.labels.filter fun l => !(occurring.map Prod.fst).contains l) closing

/-- The labels of the subject fall into those that were used and the others, each in the order of
their declarations. -/
structure Partitions (c : CaseCheck) (subject : Axis) (used : List Text) : Prop where
  usedLabels_sublist : (c.usedLabels subject).Sublist subject.labels
  unusedLabels_sublist : (c.unusedLabels subject).Sublist subject.labels
  disjoint : (c.usedLabels subject).Disjoint (c.unusedLabels subject)
  perm : (c.usedLabels subject ++ c.unusedLabels subject).Perm subject.labels
  mem_usedLabels : ∀ l, l ∈ c.usedLabels subject ↔ l ∈ subject.labels ∧ l ∈ used

/-- At any time the labels of the subject are split by whether they have been used. Both halves are
filters of one list, so each keeps the order of the declarations. -/
theorem partitions (c : CaseCheck) (subject : Axis) : c.Partitions subject c.used := by
  refine ⟨List.filter_sublist, List.filter_sublist, ?_, List.filter_append_perm _ _, ?_⟩
  · intro l hUsed hUnused
    have hUsed := (List.mem_filter.mp hUsed).2
    have hUnused := (List.mem_filter.mp hUnused).2
    rw [hUsed] at hUnused
    cases hUnused
  · intro l
    rw [usedLabels, List.mem_filter, List.contains_iff_mem]

section run

variable {calls more : List Call} {call : Call}

/-- Calls in two parts are made one part after the other, and a failure in the first part ends the
whole run there. -/
theorem run_append (subject : Axis) (c : CaseCheck) (calls more : List Call) :
    c.run subject (calls ++ more) =
      match c.run subject calls with
      | (c', none) => c'.run subject more
      | (c', some failure) => (c', some failure) := by
  induction calls generalizing c with
  | nil => rfl
  | cons call calls ih =>
      rw [List.cons_append, run, run]
      cases hStep : c.step subject call with
      | mk c' failure =>
          cases failure with
          | none => exact ih c'
          | some failure => rfl

theorem run_append_of_ok (h : c.run subject calls = (c', none)) (more : List Call) :
    c.run subject (calls ++ more) = c'.run subject more := by
  rw [run_append, h]

theorem run_cons_of_ok (h : c.step subject call = (c', none)) (calls : List Call) :
    c.run subject (call :: calls) = c'.run subject calls := by
  rw [run, h]

/-- A call that fails ends the run. -/
theorem run_cons_of_failure {failure : Failure} (h : (c.step subject call).2 = some failure)
    (calls : List Call) : (c.run subject (call :: calls)).2 = some failure := by
  rw [run]
  split <;> rename_i hStep <;> rw [hStep] at h
  · cases h
  · exact h

theorem run_singleton (subject : Axis) (c : CaseCheck) (call : Call) :
    c.run subject [call] = c.step subject call := by
  rw [run]
  split <;> rename_i hStep <;> rw [hStep]
  rfl

/-- A run that comes to its end without a failure can be taken apart from the front, its first call
having succeeded. -/
theorem run_cons_eq_none (h : c.run subject (call :: calls) = (c', none)) :
    ∃ d, c.step subject call = (d, none) ∧ d.run subject calls = (c', none) := by
  rw [run] at h
  split at h
  · rename_i d hStep
    exact ⟨d, hStep, h⟩
  · cases h

theorem run_append_eq_none (h : c.run subject (calls ++ more) = (c', none)) :
    ∃ d, c.run subject calls = (d, none) ∧ d.run subject more = (c', none) := by
  rw [run_append] at h
  split at h
  · rename_i d hRun
    exact ⟨d, hRun, h⟩
  · cases h

/-- A call that succeeds uses the label it adds, and no other. -/
theorem used_of_step (h : c.step subject call = (c', none)) : c'.used = c.used ++ Call.labels [call] := by
  cases call with
  | beginAlternative =>
      obtain ⟨-, -, rfl⟩ := beginAlternative_eq_none h
      exact (List.append_nil _).symm
  | addLabel label pos =>
      obtain ⟨-, -, -, rfl⟩ := addLabel_eq_none h
      rfl
  | endAlternative =>
      obtain ⟨-, -, rfl⟩ := endAlternative_eq_none h
      exact (List.append_nil _).symm
  | close pos =>
      obtain ⟨-, -, -, rfl⟩ := close_eq_none h
      exact (List.append_nil _).symm

/-- A call that fails uses no label, even the end of the statement, which is marked as closed by
then. -/
theorem used_of_step_failure (h : (c.step subject call).2 ≠ none) :
    (c.step subject call).1.used = c.used := by
  cases hStep : c.step subject call with
  | mk c' failure =>
      rw [hStep] at h
      obtain ⟨f, rfl⟩ := Option.ne_none_iff_exists'.mp h
      cases call with
      | beginAlternative => rw [(beginAlternative_eq_some hStep).1]
      | addLabel label pos => rw [(addLabel_eq_some hStep).1]
      | endAlternative => rw [(endAlternative_eq_some hStep).1]
      | close pos =>
          obtain ⟨rfl, -⟩ | ⟨-, -, -, -, rfl⟩ := close_eq_some hStep
          · rfl
          · rfl

/-- After successful calls the used labels are those of the calls, in order. By induction on the
calls, each of which adds what it names. -/
theorem used_of_run (h : c.run subject calls = (c', none)) : c'.used = c.used ++ Call.labels calls := by
  induction calls generalizing c with
  | nil =>
      cases h
      exact (List.append_nil _).symm
  | cons call calls ih =>
      obtain ⟨d, hStep, hRun⟩ := run_cons_eq_none h
      rw [ih hRun, used_of_step hStep, List.append_assoc, Call.labels, Call.labels, Call.labels,
        ← List.filterMap_append]
      rfl

/-- Labels added one after the other are kept in order, behind those the alternative had already. -/
theorem current_of_labels {group : List (Text × Pos)}
    (h : c.run subject (group.map fun l => .addLabel l.1 l.2) = (c', none)) :
    c'.current = c.current ++ group.map Prod.fst := by
  induction group generalizing c with
  | nil =>
      cases h
      exact (List.append_nil _).symm
  | cons l group ih =>
      obtain ⟨d, hStep, hRun⟩ := run_cons_eq_none h
      obtain ⟨-, -, -, rfl⟩ := addLabel_eq_none hStep
      rw [ih hRun, List.append_assoc]
      rfl

/-- When an alternative has ended, its labels are those that were added to it. -/
theorem current_of_alternative {group : List (Text × Pos)}
    (h : c.run subject (Call.alternative group) = (c', none)) : c'.current = group.map Prod.fst := by
  obtain ⟨filled, hLabels, hEnd⟩ := run_append_eq_none h
  obtain ⟨begun, hBegin, hLabels⟩ := run_cons_eq_none hLabels
  obtain ⟨ended, hEnd, hDone⟩ := run_cons_eq_none hEnd
  obtain ⟨-, -, rfl⟩ := beginAlternative_eq_none hBegin
  obtain ⟨-, -, rfl⟩ := endAlternative_eq_none hEnd
  cases hDone
  exact current_of_labels hLabels

end run

section fits

variable {labels used : List Text} {label : Text} {occurring : List (Text × Pos)}

theorem Fits.of_append (h : Fits subject (used ++ labels)) : Fits subject used :=
  ⟨fun _ hl => h.declared (List.mem_append_left _ hl), h.nodup.of_append_left⟩

/-- A label that is declared and has not come yet extends labels that fit. These are the two checks
made of every label. -/
theorem Fits.concat (h : Fits subject labels) (hDeclared : label ∈ subject.labels)
    (hNew : label ∉ labels) : Fits subject (labels ++ [label]) := by
  refine ⟨List.append_subset.mpr ⟨h.declared, ?_⟩, List.nodup_append.mpr ⟨h.nodup, by simp, ?_⟩⟩
  · exact List.cons_subset.mpr ⟨hDeclared, List.nil_subset _⟩
  · rintro l hl _ hLabel rfl
    exact hNew (List.mem_singleton.mp hLabel ▸ hl)

/-- Labels that fit and leave none out are those of the subject in another order. -/
theorem Fits.perm (h : Fits subject labels) (hSubject : subject.labels.Nodup)
    (hAll : subject.labels ⊆ labels) : labels.Perm subject.labels :=
  (List.perm_ext_iff_of_nodup h.nodup hSubject).mpr fun _ => ⟨@h.declared _, @hAll _⟩

/-- Any arrangement of the declared labels fits, since they are different from each other. -/
theorem fits_of_perm (h : labels.Perm subject.labels) (hSubject : subject.labels.Nodup) :
    Fits subject labels :=
  ⟨h.subset, h.nodup_iff.mpr hSubject⟩

/-- Labels that do not fit do so up to a first one that is unknown or comes again. -/
theorem exists_misfit (h : ¬ Fits subject (occurring.map Prod.fst)) :
    ∃ before label pos after, occurring = before ++ (label, pos) :: after ∧
      Fits subject (before.map Prod.fst) ∧
      (label ∉ subject.labels ∨ label ∈ subject.labels ∧ label ∈ before.map Prod.fst) := by
  induction occurring using List.reverseRecOn with
  | nil => exact absurd ⟨List.nil_subset _, List.nodup_nil⟩ h
  | append_singleton before last ih =>
      obtain ⟨label, pos⟩ := last
      by_cases hBefore : Fits subject (before.map Prod.fst)
      · refine ⟨before, label, pos, [], rfl, hBefore, ?_⟩
        by_contra hNeither
        push Not at hNeither
        obtain ⟨hDeclared, hNew⟩ := hNeither
        rw [List.map_append] at h
        exact h (hBefore.concat hDeclared (hNew hDeclared))
      · obtain ⟨front, misfit, at_, after, rfl, hFits⟩ := ih hBefore
        exact ⟨front, misfit, at_, after ++ [(label, pos)], by simp, hFits⟩

/-- An element of the joined groups belongs to one of them. -/
theorem exists_group {α : Type} {groups : List (List α)} {before after : List α} {x : α}
    (h : groups.flatten = before ++ x :: after) :
    ∃ earlier front back later, groups = earlier ++ (front ++ x :: back) :: later ∧
      before = earlier.flatten ++ front := by
  rcases List.flatten_eq_append_iff.mp h with
    ⟨as, bs, rfl, rfl, hRest⟩ | ⟨as, front, y, back, later, rfl, rfl, hRest⟩
  · obtain ⟨empties, back, later, rfl, hEmpty, -⟩ := List.flatten_eq_cons_iff.mp hRest.symm
    refine ⟨as ++ empties, [], back, later, by simp, ?_⟩
    rw [List.flatten_append, List.flatten_eq_nil_iff.mpr hEmpty, List.append_nil, List.append_nil]
  · obtain ⟨rfl, -⟩ := List.cons.inj hRest
    exact ⟨as, front, back, later, rfl, rfl⟩

end fits

section alternatives

variable {used current : List Text} {group : List (Text × Pos)} {groups : List (List (Text × Pos))}

/-- A statement with the labels used so far and those of the alternative read last. -/
def reading (subject : Axis) (opened : Pos) (used current : List Text) (inAlternative : Bool) :
    CaseCheck :=
  { start subject opened with used, current, inAlternative }

variable (hBlocks : ∀ l, subject.hasLabel l = true ↔ l ∈ subject.labels)
include hBlocks

/-- Labels that fit behind those used so far are all taken, one by one. The induction moves each
label from what is to come to what was used. -/
theorem run_labels (opened : Pos) (current : List Text)
    (h : Fits subject (used ++ group.map Prod.fst)) :
    (reading subject opened used current true).run subject (group.map fun l => .addLabel l.1 l.2) =
      (reading subject opened (used ++ group.map Prod.fst) (current ++ group.map Prod.fst) true,
        none) := by
  induction group generalizing used current with
  | nil => simp [run]
  | cons l group ih =>
      rw [List.map_cons, List.append_cons] at h
      have hFirst := h.of_append
      have hDeclared : subject.hasLabel l.1 = true :=
        (hBlocks l.1).mpr (hFirst.declared (List.mem_append_right _ (List.mem_singleton_self l.1)))
      have hNew : used.contains l.1 = false := by
        have := (List.nodup_append.mp hFirst.nodup).2.2
        simpa using fun hl => this l.1 hl l.1 (List.mem_singleton_self _) rfl
      have hStep : (reading subject opened used current true).step subject (.addLabel l.1 l.2) =
          (reading subject opened (used ++ [l.1]) (current ++ [l.1]) true, none) := by
        rw [step, addLabel]
        simp only [reading, start, hDeclared, hNew]
        rfl
      rw [List.map_cons, run_cons_of_ok hStep, ih _ h, List.map_cons, List.append_assoc,
        List.append_assoc]
      rfl

/-- A whole alternative is taken when its labels fit and there is at least one; an empty one would
be refused at its end. -/
theorem run_alternative (h : Fits subject (used ++ group.map Prod.fst)) (hGroup : group ≠ []) :
    (reading subject opened used current false).run subject (Call.alternative group) =
      (reading subject opened (used ++ group.map Prod.fst) (group.map Prod.fst) false, none) := by
  have hLabels := run_append_of_ok (run_labels hBlocks opened [] h)
    [Call.endAlternative]
  have hEnd : (group.map Prod.fst).isEmpty = false := by
    cases group with
    | nil => exact absurd rfl hGroup
    | cons l group => rfl
  rw [Call.alternative, List.cons_append, run_cons_of_ok rfl]
  refine hLabels.trans ?_
  rw [run, step, endAlternative, List.nil_append]
  simp only [reading, start, hEnd]
  rfl

/-- As long as the labels fit, the alternatives are read, and their labels are used. -/
theorem run_alternatives (opened : Pos) (hFits : Fits subject (groups.flatten.map Prod.fst))
    (hGroups : ∀ g ∈ groups, g ≠ []) :
    ∃ current, (start subject opened).run subject (groups.flatMap Call.alternative) =
      (reading subject opened (groups.flatten.map Prod.fst) current false, none) := by
  induction groups using List.reverseRecOn with
  | nil => exact ⟨[], rfl⟩
  | append_singleton groups group ih =>
      obtain ⟨hBefore, hGroup⟩ := List.forall_mem_append.mp hGroups
      rw [List.flatten_concat, List.map_append] at hFits
      obtain ⟨current, hRun⟩ := ih hFits.of_append hBefore
      refine ⟨group.map Prod.fst, ?_⟩
      rw [List.flatMap_append, List.flatMap_singleton, run_append_of_ok hRun,
        run_alternative hBlocks hFits (hGroup group (List.mem_singleton_self _)), List.flatten_concat,
        List.map_append]

/-- A label that does not fit ends the run where it comes. -/
theorem run_stops {before after : List (Text × Pos)} {label : Text} {pos : Pos} {failure : Failure}
    (hGroups : ∀ g ∈ groups, g ≠ []) (hSplit : groups.flatten = before ++ (label, pos) :: after)
    (hBefore : Fits subject (before.map Prod.fst))
    (hFails : ∀ current, ((reading subject opened (before.map Prod.fst) current true).addLabel subject
      label pos).2 = some failure) (more : List Call) :
    ((start subject opened).run subject (groups.flatMap Call.alternative ++ more)).2 =
      some failure := by
  obtain ⟨earlier, front, back, later, rfl, rfl⟩ := exists_group hSplit
  rw [List.map_append] at hBefore hFails
  obtain ⟨current, hEarlier⟩ := run_alternatives hBlocks opened hBefore.of_append
    fun g hg => hGroups g (List.mem_append_left _ hg)
  have hFront := run_labels hBlocks opened [] hBefore
  have hCalls : (earlier ++ (front ++ (label, pos) :: back) :: later).flatMap Call.alternative ++ more =
      earlier.flatMap Call.alternative ++ .beginAlternative ::
        (front.map (fun l => .addLabel l.1 l.2) ++ .addLabel label pos ::
          (back.map (fun l => .addLabel l.1 l.2) ++ .endAlternative ::
            (later.flatMap Call.alternative ++ more))) := by
    simp [Call.alternative]
  rw [hCalls, run_append_of_ok hEarlier, run_cons_of_ok rfl]
  refine (congrArg Prod.snd (run_append_of_ok hFront _)).trans (run_cons_of_failure ?_ _)
  exact hFails _

/-- The run stops at the first label that is not one of the subject's, with the error about that
label and its place, whatever was to follow. -/
theorem run_unknown {before after : List (Text × Pos)} {label : Text} {pos : Pos}
    (hGroups : ∀ g ∈ groups, g ≠ []) (hSplit : groups.flatten = before ++ (label, pos) :: after)
    (hBefore : Fits subject (before.map Prod.fst)) (hUnknown : label ∉ subject.labels)
    (more : List Call) :
    ((start subject opened).run subject (groups.flatMap Call.alternative ++ more)).2 =
      some (.diagnostic
        { kind := .unknownLabel, pos
          text := "label '" ++ label ++ "' is not a label of " ++ (start subject opened).subjectCalled
          suggestion := Suggestion.closest label subject.labels }) := by
  have hLabel : subject.hasLabel label = false := by
    rw [← Bool.not_eq_true, hBlocks]
    exact hUnknown
  refine run_stops hBlocks hGroups hSplit hBefore (fun current => ?_) more
  rw [addLabel, hLabel]
  rfl

/-- The run stops at the first label that comes again, in the same alternative or an earlier one,
with the error about the repetition. -/
theorem run_repeated {before after : List (Text × Pos)} {label : Text} {pos : Pos}
    (hGroups : ∀ g ∈ groups, g ≠ []) (hSplit : groups.flatten = before ++ (label, pos) :: after)
    (hBefore : Fits subject (before.map Prod.fst)) (hUsed : label ∈ before.map Prod.fst)
    (more : List Call) :
    ((start subject opened).run subject (groups.flatMap Call.alternative ++ more)).2 =
      some (.diagnostic
        { kind := .duplicateLabelInCase, pos
          text := "label '" ++ label ++ "' occurs more than once in case statement over " ++
            (start subject opened).subjectCalled }) := by
  have hLabel : subject.hasLabel label = true := (hBlocks label).mpr (hBefore.declared hUsed)
  have hRepeated : (before.map Prod.fst).contains label = true := by simpa using hUsed
  refine run_stops hBlocks hGroups hSplit hBefore (fun current => ?_) more
  rw [addLabel, hLabel]
  simp only [reading, start, hRepeated]
  rfl

/-- When all labels fit, it depends on the labels that are left how the statement is closed. -/
theorem run_closed (hGroups : ∀ g ∈ groups, g ≠ [])
    (hFits : Fits subject (groups.flatten.map Prod.fst)) :
    ((start subject opened).run subject (groups.flatMap Call.alternative ++ [.close closing])).2 =
      match subject.labels.filter fun l => !(groups.flatten.map Prod.fst).contains l with
      | [] => none
      | unused => some (.diagnostic ((start subject opened).incomplete unused closing)) := by
  obtain ⟨current, hRun⟩ := run_alternatives hBlocks opened hFits hGroups
  rw [run_append_of_ok hRun, run_singleton, step, close, unusedLabels]
  simp only [reading, start, Bool.false_eq_true, if_false]
  cases subject.labels.filter fun l => !(groups.flatten.map Prod.fst).contains l <;> rfl

end alternatives

section verdict

variable {occurring : List (Text × Pos)} {groups : List (List (Text × Pos))} {failure : Option Failure}

/-- There is a verdict for every sequence of labels: either all of them fit, and then it depends on
those left out, or some first one does not. -/
theorem exists_verdict (subject : Axis) (opened closing : Pos) (occurring : List (Text × Pos))
    (hSubject : subject.labels.Nodup) : ∃ failure, Verdict subject opened closing occurring failure := by
  by_cases hFits : Fits subject (occurring.map Prod.fst)
  · by_cases hAll : subject.labels ⊆ occurring.map Prod.fst
    · exact ⟨_, .exhaustive (hFits.perm hSubject hAll)⟩
    · rw [List.subset_def] at hAll
      push Not at hAll
      exact ⟨_, .incomplete hFits hAll⟩
  · obtain ⟨before, label, pos, after, hSplit, hBefore, hUnknown | ⟨-, hUsed⟩⟩ := exists_misfit hFits
    · exact ⟨_, .unknown hSplit hBefore hUnknown⟩
    · exact ⟨_, .repeated hSplit hBefore hUsed⟩

/-- The run ends as the verdict says. Together with the existence of a verdict this makes it the
only one, since a run ends in one way. -/
theorem Verdict.run_eq (h : Verdict subject opened closing groups.flatten failure)
    (hSubject : subject.labels.Nodup)
    (hBlocks : ∀ l, subject.hasLabel l = true ↔ l ∈ subject.labels)
    (hGroups : ∀ g ∈ groups, g ≠ []) :
    ((start subject opened).run subject (groups.flatMap Call.alternative ++ [.close closing])).2 =
      failure := by
  cases h with
  | exhaustive hAll =>
      have hNone : (subject.labels.filter fun l => !(groups.flatten.map Prod.fst).contains l) = [] := by
        rw [List.filter_eq_nil_iff]
        intro l hl
        simpa using hAll.mem_iff.mpr hl
      rw [run_closed hBlocks hGroups (fits_of_perm hAll hSubject), hNone]
  | unknown hSplit hBefore hUnknown => exact run_unknown hBlocks hGroups hSplit hBefore hUnknown _
  | repeated hSplit hBefore hUsed => exact run_repeated hBlocks hGroups hSplit hBefore hUsed _
  | incomplete hFits hMissing =>
      rw [run_closed hBlocks hGroups hFits]
      split
      · rename_i hNone
        obtain ⟨l, hl, hUnused⟩ := hMissing
        rw [List.filter_eq_nil_iff] at hNone
        exact absurd (hNone l hl) (by simpa using hUnused)
      · rfl

end verdict

/-- A case statement takes its alternatives exactly when together they name the labels of its subject
in some order. Otherwise it fails at the first label that is unknown or was named before, and when
there is none because of the labels that were left out. Whatever is called, the labels of the subject
fall into those that the successful calls named and the others, and an alternative that has ended has
the labels it was given. The subject may be any axis whose labels are distinct and have the blocks, as
those of every axis that a script can build. -/
theorem verdict_of_alternatives (opened closing : Pos) {groups : List (List (Text × Pos))}
    (hSubject : subject.labels.Nodup)
    (hBlocks : ∀ l, subject.hasLabel l = true ↔ l ∈ subject.labels)
    (hGroups : ∀ g ∈ groups, g ≠ []) :
    (∀ failure, ((start subject opened).run subject (Call.statement groups closing)).2 = failure ↔
        Verdict subject opened closing groups.flatten failure) ∧
      (((start subject opened).run subject (Call.statement groups closing)).2 = none ↔
        (groups.flatten.map Prod.fst).Perm subject.labels) ∧
      (∀ calls c, (start subject opened).run subject calls = (c, none) →
        c.Partitions subject (Call.labels calls) ∧
          ∀ call, (c.step subject call).2 ≠ none →
            (c.step subject call).1.Partitions subject (Call.labels calls)) ∧
      ∀ calls group c, (start subject opened).run subject (calls ++ Call.alternative group) = (c, none) →
        c.current = group.map Prod.fst := by
  have hVerdict : ∀ failure, ((start subject opened).run subject (Call.statement groups closing)).2 =
      failure ↔ Verdict subject opened closing groups.flatten failure := by
    intro failure
    refine ⟨?_, fun h => h.run_eq hSubject hBlocks hGroups⟩
    rintro rfl
    obtain ⟨failure, h⟩ := exists_verdict subject opened closing groups.flatten hSubject
    rwa [Call.statement, h.run_eq hSubject hBlocks hGroups]
  refine ⟨hVerdict, (hVerdict none).trans ⟨?_, .exhaustive⟩, ?_, ?_⟩
  · rintro ⟨hAll⟩
    exact hAll
  · intro calls c hRun
    have hUsed : c.used = Call.labels calls := used_of_run hRun
    refine ⟨hUsed ▸ c.partitions subject, fun call hFails => ?_⟩
    rw [← hUsed, ← used_of_step_failure hFails]
    exact partitions _ subject
  · intro calls group c hRun
    obtain ⟨d, -, hAlternative⟩ := run_append_eq_none hRun
    exact current_of_alternative hAlternative

/-- A choice of three labels. -/
def threeLabels : Axis :=
  ((({ kind := .choice, name := [109], declared := ⟨1, 1⟩ } : Axis).addBranch [97]).addBranch
    [98]).addBranch [99]

/-- Two alternatives in another order than that of the declarations exhaust three labels; without
the last label the statement is incomplete. -/
theorem verdict_of_threeLabels :
    ((start threeLabels ⟨2, 1⟩).run threeLabels
        (Call.statement [[([98], ⟨3, 1⟩)], [([99], ⟨4, 1⟩), ([97], ⟨4, 5⟩)]] ⟨5, 1⟩)).2 = none ∧
      Verdict threeLabels ⟨2, 1⟩ ⟨5, 1⟩ [([98], ⟨3, 1⟩), ([99], ⟨4, 1⟩)]
        ((start threeLabels ⟨2, 1⟩).run threeLabels
          (Call.statement [[([98], ⟨3, 1⟩), ([99], ⟨4, 1⟩)]] ⟨5, 1⟩)).2 :=
  have hLabels : threeLabels.labels.Nodup := by decide
  have hBlocks : ∀ l, threeLabels.hasLabel l = true ↔ l ∈ threeLabels.labels := fun l =>
    Shelf.get?_isSome_iff
  have hGroups : ∀ g ∈ [[(([98] : Text), (⟨3, 1⟩ : Pos)), ([99], ⟨4, 1⟩)]], g ≠ [] := by decide
  have hGroups' : ∀ g ∈ [[(([98] : Text), (⟨3, 1⟩ : Pos))], [([99], ⟨4, 1⟩), ([97], ⟨4, 5⟩)]],
      g ≠ [] := by decide
  ⟨(verdict_of_alternatives ⟨2, 1⟩ ⟨5, 1⟩ hLabels hBlocks hGroups').2.1.mpr (by decide),
    ((verdict_of_alternatives ⟨2, 1⟩ ⟨5, 1⟩ hLabels hBlocks hGroups).1 _).mp rfl⟩

end CaseCheck

end Runsheet
