import Runsheet.CommandLine.Usage
import Runsheet.Display
import Runsheet.Launcher
import Runsheet.Plan.File
import Runsheet.Report
import Runsheet.Request
import Runsheet.Settings

/-!
One call of the program, from its arguments to its exit code: read the settings and the script, make
the plan, show what was asked for, and launch the commands.
-/
namespace Runsheet

/-- What the program finds when it is called: its own version, the working directory, what comes from
standard input, whether the environment refuses color, and whether the call is already cancelled. -/
structure Surroundings where
  version : Text := "dev"
  directory : Directory := {}
  stdin : Text := []
  refusesColor : Bool := false
  canceled : Bool := false
  deriving DecidableEq, Repr

/-- What a call has written so far, and the directory as it has left it. -/
structure Transcript where
  out : Text := []
  err : Text := []
  directory : Directory
  deriving DecidableEq, Repr

namespace Transcript

def say (t : Transcript) (text : Text) : Transcript := { t with out := t.out ++ text }

def sayIf (t : Transcript) (condition : Bool) (text : Unit → Text) : Transcript :=
  if condition then t.say (text ()) else t

def tell (t : Transcript) (text : Text) : Transcript := { t with err := t.err ++ text }

def log (t : Transcript) (records : List LogRecord) : Transcript :=
  t.tell (records.flatMap fun r => r.line ++ "\n")

end Transcript

/-- How a call ends: well, or with the part that went wrong. -/
inductive ExitCode
  | success
  | badCall
  | badFile
  | badScript
  | commandFailed
  deriving DecidableEq, Repr

def ExitCode.number : ExitCode → Nat
  | success => 0
  | badCall => 1
  | badFile => 2
  | badScript => 3
  | commandFailed => 4

/-- Reads the settings file. The standard one may be missing. -/
def Settings.load (d : Directory) (path version : Text) : Except Complaint Settings :=
  match d.read path with
  | .error (fault, message) =>
    if path = ({} : Options).config ∧ fault = .missing then .ok {}
    else .error { kind := .settings, text := "read config: " ++ message }
  | .ok source =>
    (Settings.parse source version).mapError fun e =>
      { kind := .settings, text := path ++ ": " ++ e.message }

/-- A run that is ready to begin: what it was asked for, and the script. -/
structure Job where
  options : Options
  settings : Settings
  trace : Trace
  config : Config
  reporter : Reporter

namespace Job

/-- The script of a name; a dash stands for standard input. -/
def readScript (s : Surroundings) (script : Text) : Except Complaint Text :=
  if script = "-" then .ok s.stdin
  else
    match s.directory.read script with
    | .ok source => .ok source
    | .error (_, message) => .error { kind := .files, text := "cannot read script: " ++ message }

/-- Gets a run ready. What is wrong comes with the reporter that shows it and the code to exit with. -/
def prepare (s : Surroundings) (o : Options) (script : Text) :
    Except (Reporter × ExitCode × Complaint) Job :=
  let plain : Reporter := { filename := script }
  match Settings.load s.directory o.config s.version with
  | .error c => .error (plain, .badCall, c)
  | .ok settings =>
    let styled := { plain with color := settings.color.isOn (o.noColor || s.refusesColor) false }
    match Trace.ofNames o.trace, Directive.combine settings.selects o.selects with
    | .error c, _ => .error (styled, .badCall, c)
    | _, .error c => .error (styled, .badCall, c)
    | .ok trace, .ok directives =>
      match readScript s script with
      | .error c => .error (styled, .badFile, c)
      | .ok source =>
        .ok
          { options := o
            settings
            trace
            config := { directives, inputs := o.inputs, knownTools := settings.knownTools }
            reporter :=
              { styled with source, filename := if script = "-" then "<stdin>" else script } }

/-- The records that a run of the engine shows: none unless something is traced or debugged. The
tokens come first because the whole script is scanned before it is parsed. -/
def records (j : Job) (s : State) : List LogRecord :=
  if j.trace.concerns.isEmpty && !j.options.debug then []
  else
    (if j.trace.has .scanning then (Tokens.ofSource j.reporter.source).toList.map Token.record
      else []) ++ s.records j.trace

/-- What stopped the engine, as a problem. -/
def problemOf (j : Job) : Stop Diagnostic → Problem
  | .refused d => .engine d
  | .unreadable f =>
    match f.named j.reporter.filename with
    | .syntaxError e => .script e
    | .stuck v => .other ("internal error: " ++ v.message)

def savePlan (j : Job) (p : Plan) (t : Transcript) : Except Complaint Transcript :=
  let path := j.options.planOut
  let refuse (text : Text) : Except Complaint Transcript := .error { kind := .files, text }
  if path.isEmpty then .ok t
  else
    match t.directory.write path (p.toFile.toOption.getD []), p.toFile, p.digest with
    | .error message, _, _ => refuse ("create plan file: " ++ message)
    | .ok directory, .ok _, .ok digest =>
      .ok ({ t with directory }.say
        (Terminal.render j.reporter.color .heading "Plan digest:" ++ " " ++ digest.hex ++ "\n"))
    | _, .error message, _ | _, _, .error message =>
      refuse ("write plan file " ++ path ++ ": " ++ message)

def launchAll (l : Launcher) (e : Execution) (t : Transcript) :
    List Command → Except Violation (Execution × Transcript)
  | [] => .ok (e, t)
  | c :: rest =>
    let running := e.steps [.dropPending, .launch]
    match l.launch t.directory c running.isCommandCanceled with
    | .error v => .error v
    | .ok done =>
      let settled := running.steps [.finish done.outcome, .settle]
      let t := t.log (running.records.drop e.records.length)
      let t := { t with directory := done.directory }.say done.out |>.tell done.err
      launchAll l settled (t.log (settled.records.drop running.records.length)) rest

def failures (e : Execution) : Complaint :=
  { kind := .execution
    text := Text.decimal e.failures.length ++ " of " ++ Text.decimal e.settledCount ++
      " commands failed"
    details := Text.join "\n" (e.failures.map fun f => "  " ++ f.text) }

def launch (j : Job) (canceled : Bool) (p : Plan) (t : Transcript) : ExitCode × Transcript :=
  let start := (Execution.start p).steps (if canceled then [.cancel] else [])
  match launchAll { shell := j.settings.shell } start t p.toList with
  | .error v => (.badScript, t.tell ("Error: internal error: " ++ v.message ++ "\n"))
  | .ok (e, t) =>
    if e.succeeded then (.success, t)
    else (.commandFailed, t.tell (j.reporter.complaint (failures e)))

/-- Shows what was asked for, saves the plan, and launches it unless that was refused. -/
def carryOut (j : Job) (canceled : Bool) (s : State) (p : Plan) (t : Transcript) :
    ExitCode × Transcript :=
  let color := j.reporter.color
  let t := t.sayIf j.options.displayOptions fun _ => Display.switches color s.snapshot
  let t := t.sayIf (j.options.displayToolAndInput || j.options.noLaunch) fun _ =>
    Display.plan color s.tool p
  match j.savePlan p t with
  | .error c => (.badFile, t.tell (j.reporter.complaint c))
  | .ok t => if j.options.noLaunch then (.success, t) else j.launch canceled p t

def run (j : Job) (canceled : Bool) (t : Transcript) : ExitCode × Transcript :=
  let source := j.reporter.source
  let t := t.sayIf j.options.displayTokens fun _ => Display.tokens source
  let (s, stop) := runScript j.config {} source
  let t := (t.log (j.records s)).tell (j.reporter.warnings s.warnings)
  let t := t.sayIf j.options.dump fun _ => s.snapshot.yaml
  match stop with
  | some stop => (.badScript, t.tell (j.reporter.problem (j.problemOf stop)))
  | none => j.carryOut canceled s (s.plan.getD ⟨none⟩) t

end Job

def runScriptFile (s : Surroundings) (o : Options) (script : Text) : ExitCode × Transcript :=
  let t : Transcript := { directory := s.directory }
  match Job.prepare s o script with
  | .error (reporter, code, c) => (code, t.tell (reporter.complaint c))
  | .ok j => j.run s.canceled t

def watchRecord (script : Text) : LogRecord :=
  { message := "watching", fields := [("script", .text script)] }

/-- Runs a script and watches it until the call is cancelled. How the run went does not matter, but the
directory of the script has to be there. -/
def watchScript (s : Surroundings) (o : Options) (script : Text) : ExitCode × Transcript :=
  let t : Transcript := { directory := s.directory }
  if script = "-" then
    (.badCall, t.tell (({} : Reporter).complaint
      { kind := .arguments, text := "--watch needs a script file"
        hint := "name the script instead of reading it from stdin" }))
  else if (s.directory.resident? (Location.ofName script).parent).isNone then (.badFile, t)
  else (.success, (runScriptFile s o script).2.log [watchRecord script])

/-- Answers a call of the program. Help comes before the version, and both before the script. -/
def answer (s : Surroundings) (arguments : List Text) : ExitCode × Transcript :=
  let t : Transcript := { directory := s.directory }
  match CommandLine.parse s.version arguments with
  | .error e => (.badCall, t.tell ("Error: " ++ e.message ++ "\n"))
  | .ok c =>
    if c.options.help then (.success, t.say (CommandLine.usage s.version))
    else if c.options.version then (.success, t.say (CommandLine.versionLine s.version))
    else
      match c.operands with
      | [script] =>
        if c.options.watch then watchScript s c.options script else runScriptFile s c.options script
      | operands =>
        (.badCall, t.tell ("Error: accepts 1 arg(s), received " ++ Text.decimal operands.length ++ "\n"))

end Runsheet
