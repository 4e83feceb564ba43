import Runsheet.Script.Parser

/-!
Reading for someone who acts on the reports. Every report is a call, made in the midst of the
reading, and the first call that is refused ends it on the spot.
-/
namespace Runsheet

/-- A computation that calls someone with a state of their own. It ends with a value, or with what
its last call was refused with, and with their state. -/
def Acting (σ ε α : Type) : Type := (act : σ → Emission → σ × Option ε) → σ → σ × Except ε α

namespace Acting

variable {σ ε : Type}

instance : Monad (Acting σ ε) where
  pure a := fun _ s => (s, .ok a)
  bind x f := fun act s =>
    match x act s with
    | (s', .error refusal) => (s', .error refusal)
    | (s', .ok a) => f a act s'

instance : Reports (Acting σ ε) where
  report e := fun act s =>
    match act s e with
    | (s', some refusal) => (s', .error refusal)
    | (s', none) => (s', .ok ())

end Acting

/-- Why a script that was read for someone did not come to its end: reading failed, or an event was
refused. -/
inductive Stop (ε : Type)
  | unreadable (failure : ParseFailure)
  | refused (e : ε)
  deriving Repr

def Tokens.drive {σ ε : Type} (act : σ → Emission → σ × Option ε) (s : σ) (tokens : Tokens) :
    σ × Option (Stop ε) :=
  match (tokens.read : Acting σ ε (Option ParseFailure)) act s with
  | (s', .error refusal) => (s', some (.refused refusal))
  | (s', .ok failure) => (s', failure.map .unreadable)

/-- The reports received so far. -/
structure Recording where
  events : List (Event × Pos) := []
  records : List LogRecord := []
  deriving DecidableEq, Repr

/-- Receives reports and refuses the event with the given number, counted from zero. -/
def Recording.receive (refused : Option Nat) (r : Recording) : Emission → Recording × Option Unit
  | .note record => ({ r with records := r.records ++ [record] }, none)
  | .event e pos =>
    ({ r with events := r.events ++ [(e, pos)] },
      if refused = some r.events.length then some () else none)

/-- Everything reported while a script was read, and why reading stopped early. -/
structure Parse where
  emitted : List Emission
  failure : Option ParseFailure := none
  deriving DecidableEq, Repr

namespace Parse

/-- Reads the tokens of a script for someone who writes everything down and refuses nothing. -/
def ofTokens (tokens : Tokens) : Parse :=
  let keep (emitted : List Emission) (e : Emission) : List Emission × Option Empty :=
    (emitted ++ [e], none)
  match tokens.drive keep [] with
  | (emitted, some (.unreadable failure)) => ⟨emitted, some failure⟩
  | (emitted, none) => ⟨emitted, none⟩

def ofSource (source : Text) : Parse := ofTokens (.ofSource source)

/-- The events reported, in order. -/
def events (p : Parse) : List (Event × Pos) := p.emitted.filterMap fun
  | .event e pos => some (e, pos)
  | .note _ => none

end Parse

end Runsheet
