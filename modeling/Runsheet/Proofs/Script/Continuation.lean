import Runsheet.Proofs.Script.Exactness
import Runsheet.Proofs.Script.Relocation

/-! Scripts one after the other. Two sources that are read to their ends are read to the end when a
newline is put between them: the events are those of the first and then those of the second, further
down by the lines of the first. -/
namespace Runsheet

namespace Place

open Reader

/-- A statement does not depend on what stands before it. -/
theorem statement_spaced (eof t : Token) (more : List Token) :
    (statements.step : Recorder Place) eof ({ t with spaced := true } :: more) =
      statements.step eof (t :: more) := by
  obtain ⟨kind, text, position, spaced, fault⟩ := t
  cases kind with
  | keyword k =>
      cases k with
      | input =>
          -- The token after it tells a source statement from a declaration.
          change (if (more.headD eof).kind = .colon then (do inputStatement; return statements)
              else (do declaration .input; return statements) : Recorder Place) eof _ =
            (if (more.headD eof).kind = .colon then (do inputStatement; return statements)
              else (do declaration .input; return statements) : Recorder Place) eof _
          by_cases hColon : (more.headD eof).kind = .colon
          · rw [if_pos hColon]
            rfl
          · rw [if_neg hColon]
            rfl
      | _ => rfl
  | _ => rfl

end Place

namespace Parse

open Reader

variable {m : Relocation} {eof : Token} {place : Place} {tokens : List Token}

/-- The events of a script are its beginning, placed at the first token, and those read from the
first statement on. -/
theorem events_ofTokens (ts : Tokens) :
    (ofTokens ts).events = (.beginScript, (ts.body.headD ts.eof).pos) ::
      located (fromPlace ts.eof .statements ts.body).emitted := by
  rw [ofTokens_eq]
  rfl

/-- Where a statement may stand the tokens may also end, and the script ends with them. -/
theorem fromPlace_end (eof : Token) : fromPlace eof .statements [] = ⟨ending eof, none⟩ := by
  rw [fromPlace_eq, if_pos ⟨rfl, rfl⟩]

/-- Nor does a script depend on what stands before it. -/
theorem fromPlace_spaced (ts : Tokens) :
    fromPlace ts.spaced.eof .statements ts.spaced.body = fromPlace ts.eof .statements ts.body := by
  obtain ⟨body, eof⟩ := ts
  cases body with
  | nil =>
      rw [Tokens.spaced, fromPlace_end, fromPlace_end]
      rfl
  | cons t more =>
      rw [Tokens.spaced, fromPlace_eq, fromPlace_eq, Place.statement_spaced]
      rfl

/-- What is read to its end is read at its other place too, and reading goes on behind it. -/
theorem fromPlace_tokens (hEof : eof.kind = .eof) (hOpens : m.Opens)
    (h : (fromPlace eof place tokens).failure = none) :
    ∃ own, located (fromPlace eof place tokens).emitted = own ++ [(.endScript, eof.pos)] ∧
      located (fromPlace m.eof place (m.tokens tokens)).emitted =
        m.events own ++ located (fromPlace m.eof .statements m.tail).emitted ∧
      (fromPlace m.eof place (m.tokens tokens)).failure =
        (fromPlace m.eof .statements m.tail).failure := by
  induction hLength : tokens.length using Nat.strongRecOn generalizing place tokens with
  | ind length ih =>
      by_cases hEnd : place = .statements ∧ tokens = []
      · obtain ⟨rfl, rfl⟩ := hEnd
        refine ⟨[], ?_, rfl, rfl⟩
        rw [fromPlace_end]
        rfl
      · cases hStep : (place.step : Recorder Place) eof tokens with
        | mk emitted outcome =>
            cases outcome with
            | error e =>
                rw [fromPlace_eq, if_neg hEnd, hStep] at h
                cases h
            | ok result =>
                obtain ⟨place', rest⟩ := result
                have hLess : rest.length < tokens.length :=
                  Place.step_length_lt hEof ⟨emitted, hStep, rfl⟩
                obtain ⟨emitted', hStep', hLocated⟩ :=
                  Place.carries_step hEof hOpens place _ _ _ hStep
                rw [fromPlace_of_reads hEof hStep] at h ⊢
                rw [fromPlace_of_reads hOpens.ends hStep']
                obtain ⟨own, hOwn, hMore, hFailure⟩ := ih _ (hLength ▸ hLess) h rfl
                refine ⟨located emitted ++ own, ?_, ?_, hFailure⟩
                · rw [after, located_append, hOwn, List.append_assoc]
                · rw [after, located_append, hLocated, hMore, Relocation.events_append,
                    List.append_assoc]

/-- A script is read further down as it is read at the top. -/
theorem fromPlace_shift (lines bytes : Nat) {ts : Tokens} (hEof : ts.eof.kind = .eof)
    (h : (fromPlace ts.eof .statements ts.body).failure = none) :
    located (fromPlace (ts.shift lines bytes).eof .statements (ts.shift lines bytes).body).emitted =
        (located (fromPlace ts.eof .statements ts.body).emitted).map
          (fun x => (x.1, x.2.down lines)) ∧
      (fromPlace (ts.shift lines bytes).eof .statements (ts.shift lines bytes).body).failure =
        none := by
  let m : Relocation := ⟨lines, bytes, ts.eof.shift lines bytes, []⟩
  have hEof' : m.eof.kind = .eof := hEof
  have hOpens : m.Opens := by
    refine ⟨hEof', Or.inr (Or.inr (Or.inl hEof')), ?_, fun hWord => ?_⟩
    · rw [List.headD_nil, hEof']
      decide
    · rw [List.headD_nil, hEof'] at hWord
      cases hWord
  obtain ⟨own, hOwn, hMoved, hFailure⟩ := fromPlace_tokens hEof hOpens h
  have hBody : m.tokens ts.body = (ts.shift lines bytes).body := List.append_nil _
  have hLast : m.eof.pos = ts.eof.pos.down lines := Relocation.pos_token (m := m) ts.eof
  rw [hBody, fromPlace_end] at hMoved hFailure
  refine ⟨hMoved.trans ?_, hFailure⟩
  rw [hOwn, List.map_append, Relocation.events]
  change _ ++ [(Event.endScript, m.eof.pos)] = _
  rw [hLast]
  rfl

/-- What starts a script that is read to its end goes on with nothing that stands before it. -/
theorem opens_spaced {ts : Tokens} (hEof : ts.eof.kind = .eof)
    (h : (fromPlace ts.eof .statements ts.body).failure = none) :
    Relocation.Opens ⟨0, 0, ts.spaced.eof, ts.spaced.body⟩ := by
  have hAccepts : Accepts ts.eof .statements ts.body _ := ⟨h, rfl⟩
  obtain ⟨script, hTakes, -⟩ := (accepts_iff hEof).mp hAccepts
  have hClear : Clear ts.eof ts.body := clear_of_script hEof hTakes
  have hStart : (ts.body.headD ts.eof).kind ≠ .semicolon := by
    rcases accepts_cases hEof hAccepts with ⟨-, hBody, -⟩ | ⟨_, _, _, _, hStep, -⟩
    · rw [hBody, List.headD_nil, hEof]
      decide
    · intro hKind
      rw [Place.step, Place.statement, reads_current_bind, hKind] at hStep
      simp at hStep
  obtain ⟨body, eof⟩ := ts
  cases body with
  | nil =>
      refine ⟨hEof, hClear, hStart, fun hWord => ?_⟩
      have hEnd : eof.kind.isWord = true := hWord
      rw [show eof.kind = .eof from hEof] at hEnd
      cases hEnd
  | cons t more => exact ⟨hEof, hClear, hStart, fun _ => rfl⟩

/-- Reading goes on from the end of one script to the next. -/
theorem fromPlace_followedBy {ts us : Tokens} (hEof : ts.eof.kind = .eof)
    (hOpens : Relocation.Opens ⟨0, 0, us.eof, us.body⟩)
    (h : (fromPlace ts.eof .statements ts.body).failure = none) :
    ∃ own, located (fromPlace ts.eof .statements ts.body).emitted =
        own ++ [(.endScript, ts.eof.pos)] ∧
      located (fromPlace (ts.followedBy us).eof .statements (ts.followedBy us).body).emitted =
        own ++ located (fromPlace us.eof .statements us.body).emitted ∧
      (fromPlace (ts.followedBy us).eof .statements (ts.followedBy us).body).failure =
        (fromPlace us.eof .statements us.body).failure := by
  let m : Relocation := ⟨0, 0, us.eof, us.body⟩
  obtain ⟨own, hOwn, hJoined, hFailure⟩ := fromPlace_tokens (m := m) hEof hOpens h
  have hBody : m.tokens ts.body = (ts.followedBy us).body :=
    congrArg (· ++ us.body) (List.map_id ts.body)
  have hEvents : m.events own = own := by
    refine (List.map_congr_left fun x _ => ?_).trans (List.map_id own)
    simp [Pos.down, m]
  rw [hBody] at hJoined hFailure
  rw [hEvents] at hJoined
  exact ⟨own, hOwn, hJoined, hFailure⟩

/-- Two sources that are read to their ends are read to the end with a newline between them, and the
events of the second come after those of the first, further down by its lines. -/
theorem events_joined {σ ε : Type} {act : σ → Emission → σ × Option ε}
    (hAct : ∀ s e, (act s e).2 = none) (s : σ) {first second : Text}
    (hFirst : ((Tokens.ofSource first).drive act s).2 = none)
    (hSecond : ((Tokens.ofSource second).drive act s).2 = none) :
    ((Tokens.ofSource (first ++ 10 :: second)).drive act s).2 = none ∧
      ∃ begin₁ begin₂ begin stop own more,
        (ofSource first).events = (.beginScript, begin₁) :: own ++ [(.endScript, stop)] ∧
        (ofSource second).events = (.beginScript, begin₂) :: more ∧
        (ofSource (first ++ 10 :: second)).events =
          (.beginScript, begin) :: own ++
            more.map fun x => (x.1, x.2.down (first.count 10 + 1)) := by
  have hDrive : ∀ {source : Text}, ((Tokens.ofSource source).drive act s).2 = none ↔
      (ofSource source).failure = none := by
    intro source
    rw [drive_of_never hAct]
    exact Option.map_eq_none_iff
  rw [hDrive, ofSource, failure_ofTokens] at hFirst hSecond
  rw [hDrive, ofSource, failure_ofTokens]
  have hLegal := legal_of_failure (Tokens.kind_eof first) hFirst
  let later := (Tokens.ofSource second).shift (first.count 10 + 1) (first.length + 1)
  have hLast : later.eof.kind = .eof := Tokens.kind_eof second
  obtain ⟨hMoved, hLater⟩ := fromPlace_shift (first.count 10 + 1) (first.length + 1)
    (Tokens.kind_eof second) hSecond
  obtain ⟨own, hOwn, hMore, hFailure⟩ := fromPlace_followedBy
    (Tokens.kind_eof first) (opens_spaced hLast hLater) hFirst
  have hTokens : Tokens.ofSource (first ++ 10 :: second) =
      (Tokens.ofSource first).followedBy later.spaced := Tokens.ofSource_append hLegal second
  rw [fromPlace_spaced, ← hTokens] at hMore hFailure
  rw [hMoved] at hMore
  have hAbove := events_ofTokens (.ofSource first)
  have hWhole := events_ofTokens (.ofSource (first ++ 10 :: second))
  rw [hOwn] at hAbove
  rw [hMore] at hWhole
  exact ⟨hFailure.trans hLater, _, _, _, _, own, _, hAbove, events_ofTokens _, hWhole⟩

/-- A comment at the end of the first source and a value that a colon might go on with do not reach
into the second. -/
theorem events_joined_touching :
    (∀ s e, (Recording.receive none s e).2 = none) ∧
      ((Tokens.ofSource touchingSource).drive (Recording.receive none) {}).2 = none ∧
      ((Tokens.ofSource (touchingSource ++ 10 :: touchingSource)).drive (Recording.receive none) {}).2 =
        none ∧
      (ofSource (touchingSource ++ 10 :: touchingSource)).events.map Prod.fst =
        [.beginScript, .setTool "a'b", .addSwitch ⟨"-o", "x:y", true⟩, .setTool "a'b",
          .addSwitch ⟨"-o", "x:y", true⟩, .endScript] := by
  have hAct : ∀ s e, (Recording.receive none s e).2 = none := by
    intro s e
    cases e <;> rfl
  obtain ⟨hFailure, hHeard⟩ := (ofSource_iff touchingSource _).mpr
    ⟨_, _, spelling_touchingSymbols, layout_touchingSymbols, rfl⟩
  have hRead : ((Tokens.ofSource touchingSource).drive (Recording.receive none) {}).2 = none := by
    rw [drive_of_never hAct, ← ofSource, hFailure]
    rfl
  obtain ⟨hJoined, _, _, _, _, own, more, hFirst, hSecond, hEvents⟩ :=
    events_joined hAct {} hRead hRead
  refine ⟨hAct, hRead, hJoined, ?_⟩
  rw [← events_eq_heard] at hHeard
  have hOwn : own.map Prod.fst = [.setTool "a'b", .addSwitch ⟨"-o", "x:y", true⟩] := by
    rw [hFirst, List.map_append, List.map_cons] at hHeard
    exact List.append_cancel_right (List.cons.inj hHeard).2
  have hMore : more.map Prod.fst =
      [.setTool "a'b", .addSwitch ⟨"-o", "x:y", true⟩, .endScript] := by
    rw [hSecond, List.map_cons] at hHeard
    exact (List.cons.inj hHeard).2
  have hMoved : (more.map fun x => (x.1, x.2.down (touchingSource.count 10 + 1))).map Prod.fst =
      more.map Prod.fst := List.map_map
  rw [hEvents, List.map_append, hMoved, List.map_cons, hOwn, hMore]
  rfl

end Parse

end Runsheet
