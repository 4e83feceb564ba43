import Runsheet.Proofs.Script.Mending
import Runsheet.Proofs.Token.Cut

/-! Where a script that breaks off is blamed. A syntax error points to a token of the source and shows
it, and it never comes too late: what stands before that token is the front of a script, one that can
be written down and read to its end. -/
namespace Runsheet

namespace Parse

variable {source : Text} {e : SyntaxError}

/-- Someone who never refuses is told of the source's own failure. -/
theorem failure_of_drive {σ ε : Type} {act : σ → Emission → σ × Option ε}
    (hAct : ∀ s e, (act s e).2 = none) {s : σ} {failure : ParseFailure}
    (h : ((Tokens.ofSource source).drive act s).2 = some (.unreadable failure)) :
    (ofSource source).failure = some failure := by
  rw [drive_of_never hAct] at h
  obtain ⟨own, hOwn, hSame⟩ := Option.map_eq_some_iff.mp h
  rw [ofSource, hOwn, Stop.unreadable.inj hSame]

/-- Someone who only takes down what is reported is one who never refuses. -/
theorem receive_never (r : Recording) (e : Emission) : (Recording.receive none r e).2 = none := by
  cases e <;> rfl

/-- Someone who keeps the events and refuses nothing stops the reading at an error in the script
only. -/
theorem drive_recording (source : Text) :
    ((Tokens.ofSource source).drive (Recording.receive none) {}).2 =
      (ofSource source).failure.map .unreadable := by
  rw [drive_of_never receive_never]
  rfl

/-- The tokens before the one that an error is about are the first tokens of a source that is read to
its end, and the events before the error are the first events of that source. -/
theorem exists_completed (h : (ofSource source).failure = some (.syntaxError e)) :
    ∃ read blamed more completed, (Tokens.ofSource source).body = read ++ blamed ∧
      e.About (blamed.headD (Tokens.ofSource source).eof) ∧
      (Tokens.ofSource completed).body = read ++ more ∧ (ofSource completed).failure = none ∧
      (ofSource source).events <+: (ofSource completed).events := by
  have hEof := Tokens.kind_eof source
  obtain ⟨read, blamed, fillers, hTokens, hAbout, hMended⟩ :=
    mended_of_failure hEof ((failure_ofTokens _).symm.trans h)
  have hLegal : ∀ t ∈ read, t.kind ≠ .illegal := by
    -- Some tokens complete what was read, so there is no fault in it.
    obtain ⟨eof, more, hEof, hFill, hPos⟩ :=
      Filler.exists_fill fillers (blamed.headD (Tokens.ofSource source).eof).position
    obtain ⟨hFailure, -⟩ := hMended hEof hFill fun _ => hPos
    exact fun t ht => legal_of_failure hEof hFailure t (List.mem_append_left _ ht)
  obtain ⟨completed, more, hBody, hFill, hPos⟩ := Tokens.exists_completed hTokens hLegal fillers
  obtain ⟨hFailure, hEvents, -⟩ := hMended (Tokens.kind_eof completed) hFill fun hPinned =>
    hPos fun t ht => (pinned_iff (Option.mem_def.mp ht)).mp hPinned
  rw [← hBody] at hFailure hEvents
  refine ⟨read, blamed, more, completed, hTokens, hAbout, hBody,
    (failure_ofTokens _).trans hFailure, ?_⟩
  have hBegin : ((Tokens.ofSource source).body.headD (Tokens.ofSource source).eof).pos =
      ((Tokens.ofSource completed).body.headD (Tokens.ofSource completed).eof).pos := by
    rw [hTokens, hBody]
    cases read with
    | nil => exact (hPos nofun).symm
    | cons t read => rfl
  have hFirst := events_ofTokens (.ofSource source)
  have hSecond := events_ofTokens (.ofSource completed)
  rw [hBegin] at hFirst
  rw [ofSource, ofSource, hFirst, hSecond]
  exact (List.prefix_cons_inj _).mpr hEvents

/-- An error that ends the reading of a source for someone who never refuses is about one of its
tokens, and the tokens before that one can be completed: further tokens and an end token bring the
reading to its end, and some source has exactly these tokens. -/
theorem blamed_of_drive {σ ε : Type} {act : σ → Emission → σ × Option ε}
    (hAct : ∀ s e, (act s e).2 = none) (s : σ)
    (h : ((Tokens.ofSource source).drive act s).2 = some (.unreadable (.syntaxError e))) :
    ∃ k t, (Tokens.ofSource source).toList[k]? = some t ∧ e.About t ∧
      ∃ more eof completed, eof.kind = .eof ∧
        (Tokens.drive act s ⟨(Tokens.ofSource source).toList.take k ++ more, eof⟩).2 = none ∧
        Tokens.ofSource completed = ⟨(Tokens.ofSource source).toList.take k ++ more, eof⟩ := by
  have hFailure := failure_of_drive hAct h
  obtain ⟨read, blamed, more, completed, hBody, hAbout, hCompleted, hEnd, -⟩ :=
    exists_completed hFailure
  have hAll : (Tokens.ofSource source).toList =
      read ++ (blamed ++ [(Tokens.ofSource source).eof]) := by
    rw [Tokens.toList, hBody, List.append_assoc]
  have hTokens : Tokens.ofSource completed = ⟨read ++ more, (Tokens.ofSource completed).eof⟩ := by
    rw [← hCompleted]
  refine ⟨read.length, blamed.headD (Tokens.ofSource source).eof, ?_, hAbout, more,
    (Tokens.ofSource completed).eof, completed, Tokens.kind_eof completed, ?_, ?_⟩
  · rw [hAll, List.getElem?_append_right (Nat.le_refl _), Nat.sub_self]
    cases blamed <;> rfl
  · rw [hAll, List.take_left, ← hTokens, drive_of_never hAct]
    exact Option.map_eq_none_iff.mpr hEnd
  · rw [hAll, List.take_left]
    exact hTokens

/-- An alternative whose option is followed by a name that touches a colon, with no word after it. -/
def brokenPair : Text := "case c: a | b: -o x:; ;"

/-- The name is the whole value of the option, so the error is about the colon. -/
def brokenPairError : SyntaxError :=
  { pos := ⟨1, 20⟩, offset := 19, text := "unexpected ':'", context := "case alternative"
    expected := [.option, .keyword .case, .semicolon], got := .colon
    sample := "score | part: -title X;" }

/-- A colon behind the value of an option that no word touches is blamed. Up to it the alternative
can still be completed. -/
theorem blamed_of_drive_brokenPair :
    (∀ s e, (Recording.receive none s e).2 = none) ∧
      ((Tokens.ofSource brokenPair).drive (Recording.receive none) {}).2 =
        some (.unreadable (.syntaxError brokenPairError)) ∧
      ∃ k t, (Tokens.ofSource brokenPair).toList[k]? = some t ∧ brokenPairError.About t ∧
        ∃ more eof completed, eof.kind = .eof ∧
          (Tokens.drive (Recording.receive none) {}
            ⟨(Tokens.ofSource brokenPair).toList.take k ++ more, eof⟩).2 = none ∧
          Tokens.ofSource completed =
            ⟨(Tokens.ofSource brokenPair).toList.take k ++ more, eof⟩ := by
  have hFailure : (ofSource brokenPair).failure = some (.syntaxError brokenPairError) := by
    decide +kernel
  have hDrive : ((Tokens.ofSource brokenPair).drive (Recording.receive none) {}).2 =
      some (.unreadable (.syntaxError brokenPairError)) := by
    rw [drive_recording, hFailure]
    rfl
  exact ⟨receive_never, hDrive, blamed_of_drive receive_never {} hDrive⟩

end Parse

end Runsheet
