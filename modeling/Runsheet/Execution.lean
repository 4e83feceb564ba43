import Runsheet.Contract
import Runsheet.Log
import Runsheet.Plan

/-!
Running the commands of a plan one after the other. A failing command does not stop the run. An
interrupt kills the command that runs at that moment and the run goes on with the next one; interrupts
that arrive between two commands are dropped.

A run is a sequence of steps that may interleave in any order that `Execution.step?` admits: signals
and the cancellation arrive from outside at any time, and the watcher of a command may act on one of
them until the result of the command is settled.
-/
namespace Runsheet

/-- Why a command has no exit status of its own. -/
inductive LaunchError
  | interrupted
  | failed (message : Text)
  deriving DecidableEq, Repr

def LaunchError.message : LaunchError → Text
  | interrupted => "interrupted"
  | failed message => message

/-- How a command ended: its exit code, and an error if it did not run to its end. -/
structure Outcome where
  code : Int
  error : Option LaunchError := none
  deriving DecidableEq, Repr

namespace Outcome

def isSuccess (o : Outcome) : Bool := o.code == 0 && o.error.isNone

/-- The outcome of a command that was killed by an interrupt. -/
def killed : Outcome := ⟨-1, some .interrupted⟩

/-- What counts once the watcher has stopped: a command whose context was cancelled was interrupted,
unless it succeeded all the same. -/
def settled (o : Outcome) (canceled : Bool) : Outcome :=
  if canceled && !o.isSuccess then killed else o

end Outcome

/-- A command of the plan that did not succeed. -/
structure FailedCommand where
  index : Nat
  line : Text
  outcome : Outcome
  deriving DecidableEq, Repr

def FailedCommand.text (f : FailedCommand) : Text :=
  "command " ++ Text.decimal (f.index + 1) ++ " (" ++ f.line ++ "): " ++
    match f.outcome.error with
    | some e => e.message
    | none => "exit status " ++ Text.decimalInt f.outcome.code

/-- What the run is doing. A command that ended is still watched until its result is settled. -/
inductive Phase
  | between
  | ready
  | running (canceled : Bool)
  | ended (canceled : Bool) (outcome : Outcome)
  deriving DecidableEq, Repr

inductive Step
  | signal
  | cancel
  | dropPending
  | launch
  | watchSignal
  | watchCancel
  | finish (outcome : Outcome)
  | settle
  deriving DecidableEq, Repr

/-- A run: the commands of the plan, how many of them are settled, the interrupts that nobody has
taken yet, whether the run was cancelled and whether that has been used, and what it has told so
far. -/
structure Execution where
  commands : List Command
  settledCount : Nat := 0
  phase : Phase := .between
  pending : Nat := 0
  canceled : Bool := false
  cancelUsed : Bool := false
  launched : List Command := []
  failures : List FailedCommand := []
  records : List LogRecord := []
  deriving DecidableEq, Repr

namespace Execution

/-- A run that has not begun. -/
def start (p : Plan) : Execution := { commands := p.toList }

def current? (e : Execution) : Option Command := e.commands[e.settledCount]?

def cancelReady (e : Execution) : Bool := e.canceled && !e.cancelUsed

def dropRecord (next : Nat) : LogRecord :=
  { message := "interrupt between commands ignored", fields := [("next", .number (next : Int))] }

def launchRecord (index total : Nat) (c : Command) : LogRecord :=
  { message := "launching"
    fields := [("index", .number (index : Int)), ("of", .number (total : Int)),
      ("command", .text c.line)] }

def failureRecord (index : Nat) (o : Outcome) : LogRecord :=
  { message := "command failed"
    fields := [("index", .number (index : Int)), ("exit", .number o.code),
      ("error", .failure (o.error.map LaunchError.message))] }

def afterDrop (e : Execution) : Execution :=
  { e with
    phase := .ready
    pending := 0
    cancelUsed := e.cancelUsed || e.canceled
    records := e.records ++
      if e.cancelReady || e.pending > 0 then [dropRecord (e.settledCount + 1)] else [] }

def afterLaunch (e : Execution) (c : Command) : Execution :=
  { e with
    phase := .running false
    launched := e.launched ++ [c]
    records := e.records ++ [launchRecord (e.settledCount + 1) e.commands.length c] }

def afterSettle (e : Execution) (c : Command) (o : Outcome) : Execution :=
  { e with
    phase := .between
    settledCount := e.settledCount + 1
    failures := e.failures ++ if o.isSuccess then [] else [⟨e.settledCount, c.line, o⟩]
    records := e.records ++ if o.isSuccess then [] else [failureRecord (e.settledCount + 1) o] }

/-- The phase in which the watcher has cancelled the command, if it has not yet. -/
def canceledPhase? : Phase → Option Phase
  | .running false => some (.running true)
  | .ended false o => some (.ended true o)
  | _ => none

/-- The state after a step; none where the step cannot happen. -/
def step? (e : Execution) (s : Step) : Option Execution :=
  match s with
  | .signal => some { e with pending := e.pending + 1 }
  | .cancel => some { e with canceled := true }
  | .dropPending => if e.phase = .between ∧ e.current?.isSome then some e.afterDrop else none
  | .launch => if e.phase = .ready then e.current?.map e.afterLaunch else none
  | .watchSignal =>
    if e.pending > 0 then
      (canceledPhase? e.phase).map fun phase => { e with phase, pending := e.pending - 1 }
    else none
  | .watchCancel =>
    if e.cancelReady then
      (canceledPhase? e.phase).map fun phase => { e with phase, cancelUsed := true }
    else none
  | .finish o =>
    match e.phase with
    | .running canceled => some { e with phase := .ended canceled o }
    | _ => none
  | .settle =>
    match e.phase with
    | .ended canceled o => e.current?.map fun c => e.afterSettle c (o.settled canceled)
    | _ => none

/-- The state after some steps, those that cannot happen left out. -/
def steps (e : Execution) (ss : List Step) : Execution :=
  ss.foldl (fun e s => (e.step? s).getD e) e

def isDone (e : Execution) : Bool := e.phase == .between && e.settledCount == e.commands.length

def succeeded (e : Execution) : Bool := e.failures.isEmpty

def exitCode (e : Execution) : Int := if e.succeeded then 0 else 1

def isCommandCanceled (e : Execution) : Bool :=
  match e.phase with
  | .running canceled => canceled
  | .ended canceled _ => canceled
  | _ => false

end Execution

/-- How a command behaves once it is launched: what happens while it runs, and how it ends, which may
depend on whether its context was cancelled by then. -/
structure Conduct where
  meanwhile : List Step := []
  outcome : (canceled : Bool) → Outcome

namespace Execution

/-- Runs the command whose turn it is. -/
def perform (e : Execution) (c : Conduct) : Execution :=
  let e := (e.steps [.dropPending, .launch]).steps c.meanwhile
  e.steps [.finish (c.outcome e.isCommandCanceled), .settle]

/-- Runs all commands, each with its conduct; one for which none is given succeeds. -/
def performAll (e : Execution) : List Conduct → Execution
  | [] => (List.replicate (e.commands.length - e.settledCount) ⟨[], fun _ => ⟨0, none⟩⟩).foldl
      perform e
  | c :: rest => (e.perform c).performAll rest

end Execution

end Runsheet
