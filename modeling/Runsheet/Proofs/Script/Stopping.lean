import Runsheet.Proofs.Script.Blame

/-! Reading for someone who may refuse. Every event is a call, and the first call that is refused is
the last one made. Whether reading ends there, at an error in the script or at its end, the calls made
are the first events of a script that is read to its end. -/
namespace Runsheet

variable {ε : Type}

/-- Someone who never refuses. -/
def never : List (Event × Pos) → Option ε := fun _ => none

/-- Someone who refuses the call with the given number, counted from zero, and none before it. -/
def refusingAt (i : Nat) (e : ε) (later : List (Event × Pos) → Option ε)
    (made : List (Event × Pos)) : Option ε :=
  if made.length ≤ i then none else if made.length = i + 1 then some e else later made

/-- Keeps the calls made so far. The answer to a call may depend on all of them, itself included. -/
def recordCalls (answer : List (Event × Pos) → Option ε) (made : List (Event × Pos)) :
    Emission → List (Event × Pos) × Option ε
  | .note _ => (made, none)
  | .event e pos => (made ++ [(e, pos)], answer (made ++ [(e, pos)]))

section handOn

variable (emitted : List Emission) {made : List (Event × Pos)}

/-- Someone who never refuses hears every event, in order. -/
theorem handOn_never :
    handOn (recordCalls (never : _ → Option ε)) made emitted = (made ++ located emitted, none) := by
  induction emitted generalizing made with
  | nil => exact Prod.ext (List.append_nil made).symm rfl
  | cons x emitted ih =>
      cases x with
      | note record => exact ih
      | event e pos =>
          refine Eq.trans ih ?_
          rw [List.append_assoc]
          rfl

/-- The refused call is made, and none after it. -/
theorem handOn_refusingAt {i : Nat} {e : ε} {later : List (Event × Pos) → Option ε}
    (hMade : made.length ≤ i) :
    handOn (recordCalls (refusingAt i e later)) made emitted =
      if i < made.length + (located emitted).length then
        (made ++ (located emitted).take (i + 1 - made.length), some e)
      else (made ++ located emitted, none) := by
  induction emitted generalizing made with
  | nil =>
      have hNone : ¬ i < made.length + (located []).length := Nat.not_lt.mpr hMade
      rw [if_neg hNone]
      exact Prod.ext (List.append_nil made).symm rfl
  | cons x emitted ih =>
      cases x with
      | note record => exact ih hMade
      | event event pos =>
          have hLength : (made ++ [(event, pos)]).length = made.length + 1 := List.length_append
          rw [handOn, recordCalls, located_event, List.length_cons]
          by_cases hHere : made.length = i
          · have hRefused : refusingAt i e later (made ++ [(event, pos)]) = some e := by
              rw [refusingAt, hLength, hHere, if_neg (Nat.not_succ_le_self i), if_pos rfl]
            rw [hRefused, if_pos (by omega), hHere, Nat.add_sub_cancel_left]
            rfl
          · have hLess : made.length + 1 ≤ i := Nat.lt_of_le_of_ne hMade hHere
            have hTaken : refusingAt i e later (made ++ [(event, pos)]) = none := by
              rw [refusingAt, hLength, if_pos hLess]
            have hCount : i + 1 - made.length = i + 1 - (made.length + 1) + 1 := by omega
            rw [hTaken]
            dsimp only
            rw [ih (hLength ▸ hLess), hLength, hCount, List.take_succ_cons, List.append_assoc,
              List.append_assoc, Nat.add_right_comm, Nat.add_assoc]
            rfl

/-- No call is made but in the order of the events. -/
theorem prefix_handOn (answer : List (Event × Pos) → Option ε) :
    (handOn (recordCalls answer) made emitted).1 <+: made ++ located emitted := by
  induction emitted generalizing made with
  | nil => exact List.prefix_append _ _
  | cons x emitted ih =>
      cases x with
      | note record => exact ih
      | event e pos =>
          have hAll : made ++ located (.event e pos :: emitted) =
              made ++ [(e, pos)] ++ located emitted := by
            rw [List.append_assoc]
            rfl
          rw [hAll, handOn, recordCalls]
          cases answer (made ++ [(e, pos)]) with
          | some refusal => exact List.prefix_append _ _
          | none => exact ih

/-- The state in which a listener is left depends on the reports alone, not on whether the script
ended in an error. -/
theorem Parse.drive_fst {σ : Type} (act : σ → Emission → σ × Option ε) (s : σ) (tokens : Tokens) :
    (tokens.drive act s).1 = (handOn act s (ofTokens tokens).emitted).1 := by
  rw [drive_eq]
  rcases handOn act s (ofTokens tokens).emitted with ⟨s', _ | refusal⟩ <;> rfl

end handOn

namespace Parse

/-- A source is read to its end or not; either way its events are the first ones of a source that
is. -/
theorem exists_whole (source : Text) :
    ∃ whole, (ofSource whole).failure = none ∧
      (ofSource source).events <+: (ofSource whole).events := by
  rcases fromPlace_failure (Tokens.kind_eof source) .statements (Tokens.ofSource source).body with
    h | ⟨e, h⟩
  · exact ⟨source, (failure_ofTokens _).trans h, List.prefix_rfl⟩
  · obtain ⟨-, -, -, completed, -, -, -, hEnd, hEvents⟩ :=
      exists_completed ((failure_ofTokens _).trans h)
    exact ⟨completed, hEnd, hEvents⟩

/-- The calls made when a source is read for someone with these answers, and why reading stopped. -/
def calls (source : Text) (answer : List (Event × Pos) → Option ε) :
    List (Event × Pos) × Option (Stop ε) :=
  (Tokens.ofSource source).drive (recordCalls answer) []

/-- The calls of someone who never refuses are the events of the script. -/
theorem calls_never (source : Text) : calls source (never : _ → Option ε) =
    ((ofSource source).events, (ofSource source).failure.map .unreadable) := by
  rw [calls, drive_eq, handOn_never]
  rfl

/-- The first refusal ends the reading: the calls made are those up to the refused one, and what it
was refused with is handed back. Without a refusal all calls are made. In any case the calls made are
the first ones of a source that lays out a script and is read to its end. -/
theorem calls_stop_at_refusal (source : Text) :
    (∀ (i : Nat) (e : ε) (later : List (Event × Pos) → Option ε),
      calls source (refusingAt i e later) =
        if i < (calls source (never : _ → Option ε)).1.length then
          ((calls source (never : _ → Option ε)).1.take (i + 1), some (.refused e))
        else calls source never) ∧
    ∃ whole script symbols, scriptSpelling script symbols ∧ Layout symbols whole ∧
      (calls whole (never : _ → Option ε)).1.map Prod.fst = scriptEvents script ∧
      (calls whole (never : _ → Option ε)).2 = none ∧
      ∀ answer : List (Event × Pos) → Option ε,
        (calls source answer).1 <+: (calls whole (never : _ → Option ε)).1 := by
  constructor
  · intro i e later
    have hCount : i < ([] : List (Event × Pos)).length +
        (located (ofTokens (.ofSource source)).emitted).length ↔
          i < (ofSource source).events.length := by
      rw [List.length_nil, Nat.zero_add]
      rfl
    rw [calls_never, calls, drive_eq, handOn_refusingAt _ (Nat.zero_le i)]
    by_cases hCall : i < (ofSource source).events.length
    · rw [if_pos (hCount.mpr hCall), if_pos hCall]
      rfl
    · rw [if_neg (mt hCount.mp hCall), if_neg hCall]
      rfl
  · obtain ⟨whole, hFailure, hEvents⟩ := exists_whole source
    obtain ⟨script, symbols, hSpelling, hLayout, hHeard⟩ :=
      (ofSource_iff whole _).mp ⟨hFailure, rfl⟩
    refine ⟨whole, script, symbols, hSpelling, hLayout, ?_, ?_, fun answer => ?_⟩
    · rw [calls_never, events_eq_heard, hHeard]
    · rw [calls_never, hFailure]
      rfl
    · rw [calls_never, calls, drive_fst]
      exact (prefix_handOn (ofSource source).emitted answer).trans hEvents

end Parse

end Runsheet
