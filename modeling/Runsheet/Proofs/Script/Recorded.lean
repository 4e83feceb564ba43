import Runsheet.Script.Drive

/-! Reading with every report written down and nobody to refuse one. What a reader does to a script
is proved of this reading; what it does for someone who may refuse is told from it afterwards. -/
namespace Runsheet

/-- A value with everything that was reported on the way to it. -/
structure Recorded (α : Type) where
  emitted : List Emission := []
  outcome : α

namespace Recorded

instance : Monad Recorded where
  pure a := { outcome := a }
  bind x f := ⟨x.emitted ++ (f x.outcome).emitted, (f x.outcome).outcome⟩

instance : Reports Recorded where
  report e := ⟨[e], ()⟩

end Recorded

abbrev Recorder := Reader Recorded

/-- What such a step makes of some tokens. -/
abbrev Reading (α : Type) : Type := Recorded (Except SyntaxError (α × List Token))

namespace Reader

variable {α β : Type} {eof : Token} {tokens : List Token}

/-- After a step that succeeds the next one reads on, and the reports of both are kept in this order.
An error leaves the reports that came before it. -/
theorem bind_eq (x : Recorder α) (f : α → Recorder β) (eof : Token) (tokens : List Token) :
    (x >>= f) eof tokens =
      match x eof tokens with
      | ⟨emitted, .error e⟩ => ⟨emitted, .error e⟩
      | ⟨emitted, .ok (a, rest)⟩ => ⟨emitted ++ (f a eof rest).emitted, (f a eof rest).outcome⟩ := by
  change Reader.bind x f eof tokens = _
  rw [Reader.bind]
  match x eof tokens with
  | ⟨emitted, .error e⟩ => exact congrArg (Recorded.mk · _) (List.append_nil emitted)
  | ⟨emitted, .ok (a, rest)⟩ => rfl

/-- Labels are reported one after another as long as bars follow; the first fault in a label ends
them. -/
theorem labels_eq (context : Construct) (event : Text → Event) (eof : Token) (tokens : List Token) :
    (labels context event : Recorder Unit) eof tokens =
      match (label context : Recorder Text) eof tokens with
      | ⟨emitted, .error e⟩ => ⟨emitted, .error e⟩
      | ⟨emitted, .ok (text, rest)⟩ =>
        let reported := emitted ++ [.event (event text) (tokens.headD eof).pos]
        match rest with
        | [] => ⟨reported, .ok ((), [])⟩
        | bar :: rest' =>
          if bar.kind = .bar then
            if rest'.length < tokens.length then
              let following := (labels context event : Recorder Unit) eof rest'
              ⟨reported ++ following.emitted, following.outcome⟩
            else ⟨reported, .ok ((), rest')⟩
          else ⟨reported, .ok ((), rest)⟩ := by
  rw [labels]
  match (label context : Recorder Text) eof tokens with
  | ⟨emitted, .error e⟩ => exact congrArg (Recorded.mk · _) (List.append_nil emitted)
  | ⟨emitted, .ok (text, [])⟩ => rfl
  | ⟨emitted, .ok (text, bar :: rest')⟩ =>
      dsimp only [bind, report, pure]
      by_cases hBar : bar.kind = .bar
      · by_cases hLess : rest'.length < tokens.length
        · simp only [if_pos hBar, if_pos hLess, List.append_assoc]
        · simp only [if_pos hBar, if_neg hLess, List.append_nil]
      · simp only [if_neg hBar, List.append_nil]

end Reader

namespace Parse

def after (p : Parse) (emitted : List Emission) : Parse := { p with emitted := emitted ++ p.emitted }

def ending (eof : Token) : List Emission :=
  [.note { message := "← script" }, .event .endScript eof.pos]

def beginning (tokens : Tokens) : List Emission :=
  [.note { message := "→ script", fields := [("tokens", .number tokens.toList.length)] },
    .event .beginScript (tokens.body.headD tokens.eof).pos]

/-- What is written down while a script is read from a place on. -/
def fromPlace (eof : Token) (place : Place) (tokens : List Token) : Parse :=
  let read : Recorded (Option ParseFailure) := place.readOn eof tokens
  ⟨read.emitted, read.outcome⟩

/-- At the end of the statements the script is over. From any other place one construct is read and
then the rest, unless the construct is faulty. -/
theorem fromPlace_eq (eof : Token) (place : Place) (tokens : List Token) :
    fromPlace eof place tokens =
      if place = .statements ∧ tokens = [] then ⟨ending eof, none⟩
      else match (place.step : Recorder Place) eof tokens with
        | ⟨emitted, .error e⟩ => ⟨emitted ++ [.note e.record], some (.syntaxError e)⟩
        | ⟨emitted, .ok (place', rest)⟩ =>
          if rest.length < tokens.length then (fromPlace eof place' rest).after emitted
          else ⟨emitted, some (.stuck ⟨.invariant, "parser stuck before " ++
            Text.decimal tokens.length ++ " tokens"⟩)⟩ := by
  rw [fromPlace, Place.readOn]
  by_cases hEnd : place = .statements ∧ tokens = []
  · rw [if_pos hEnd, if_pos hEnd]
    rfl
  · rw [if_neg hEnd, if_neg hEnd]
    match (place.step : Recorder Place) eof tokens with
    | ⟨emitted, .error e⟩ => rfl
    | ⟨emitted, .ok (place', rest)⟩ =>
        dsimp only [bind]
        split
        · rfl
        · exact congrArg (Parse.mk · _) (List.append_nil emitted)

end Parse

end Runsheet
