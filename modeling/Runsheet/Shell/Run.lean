import Runsheet.Directory
import Runsheet.Program.Plain
import Runsheet.Shell.Script

/-!
Running a shell script. Besides its own commands a script can call other programs; what they do is a
parameter here.
-/
namespace Runsheet

namespace Shell

open Program (Effect Ending)

/-- What calling a program does in a directory, which it may change. Complaints of the shell about the
call start with the given text. -/
abbrev Caller := (lead : Text) → Directory → List Text → Effect × Directory

/-- A script that is run: the name under which it speaks, its parameters and variables, the code of
the last command, what was written so far, and how it ended if it has. -/
structure Session where
  name : Text
  parameters : List Text := []
  bindings : List (Text × Text) := []
  stopsOnFailure : Bool := false
  status : Nat := 0
  out : Text := []
  err : Text := []
  ending : Option Ending := none
  directory : Directory
  deriving DecidableEq, Repr

inductive Sink
  | out
  | err
  | nowhere
  | file (name : Text)
  deriving DecidableEq, Repr

namespace Session

def ownNumber : Text := "4242"

/-- The value of a parameter; one that is not set is empty. -/
def value (s : Session) (name : Text) : Text :=
  match Decimal.ofDigits? name with
  | some 0 => s.name
  | some n => s.parameters.getD (n - 1) []
  | none =>
    if name = "#" then Text.decimal s.parameters.length
    else if name = "?" then Text.decimal s.status
    else if name = "$" then ownNumber
    else if name = "@" || name = "*" then Text.join " " s.parameters
    else ((s.bindings.find? (·.1 == name)).map (·.2)).getD []

/-- Splits a bare value at blanks, going on with the field that has begun. -/
def split (begun : Option Text) : Text → List Text × Option Text
  | [] => ([], begun)
  | b :: rest =>
    if b = 32 || b = 9 || b = 10 then
      let (fields, last) := split none rest
      (begun.toList ++ fields, last)
    else split (some (begun.getD [] ++ [b])) rest

/-- The fields of bare parameters, each split by itself. -/
def splitAll (begun : Option Text) : List Text → List Text × Option Text
  | [] => ([], begun)
  | [t] => split begun t
  | t :: rest =>
    let (fields, last) := split begun t
    let (more, final) := splitAll none rest
    (fields ++ last.toList ++ more, final)

/-- The parameters as fields, the first joined to the field that has begun. -/
def spread (begun : Option Text) : List Text → List Text × Option Text
  | [] => ([], begun)
  | [t] => ([], some (begun.getD [] ++ t))
  | t :: rest =>
    let (fields, last) := spread none rest
    ((begun.getD [] ++ t) :: fields, last)

/-- The fields that the pieces of a word come to, going on with the field that has begun. -/
def expandFrom (s : Session) (begun : Option Text) : List Piece → List Text
  | [] => begun.toList
  | .text t _ :: rest => s.expandFrom (some (begun.getD [] ++ t)) rest
  | .parameter name quoted :: rest =>
    let (fields, last) :=
      if quoted then
        if name = "@" then spread begun s.parameters else ([], some (begun.getD [] ++ s.value name))
      else if name = "@" || name = "*" then splitAll begun s.parameters
      else split begun (s.value name)
    fields ++ s.expandFrom last rest

/-- The fields of a word. All parameters in quotes are no field when there are none. -/
def expand (s : Session) (word : List Piece) : List Text :=
  if word = [.text [] true, .parameter "@" true] && s.parameters.isEmpty then []
  else s.expandFrom none word

def expandToText (s : Session) (word : List Piece) : Text := Text.join " " (s.expand word)

/-- The variable and the value that a word assigns, if it does. -/
def assignment? (s : Session) : List Piece → Option (Text × Text)
  | .text t false :: rest =>
    match t.cut 61 with
    | some (name, value) =>
      if (name.head?.map Scan.startsName) == some true &&
          name.all (fun b => Scan.startsName b || Decimal.isDigit b) then
        some (name, s.expandToText (.text value true :: rest))
      else none
    | none => none
  | _ => none

def assign (s : Session) (name value : Text) : Session :=
  { s with bindings := (name, value) :: s.bindings.filter (·.1 != name) }

def write (s : Session) (sink : Sink) (t : Text) : Session :=
  match sink with
  | .out => { s with out := s.out ++ t }
  | .err => { s with err := s.err ++ t }
  | .nowhere => s
  | .file name =>
    match s.directory.read name with
    | .ok content =>
      match s.directory.write name (content ++ t) with
      | .ok directory => { s with directory }
      | .error _ => s
    | .error _ => s

/-- What the script says about itself. -/
def lead (s : Session) (line : Nat) : Text := s.name ++ ": " ++ Text.decimal line ++ ": "

structure Streams where
  out : Sink := .out
  err : Sink := .err
  deriving DecidableEq, Repr

def Streams.get (t : Streams) (stream : Nat) : Sink := if stream = 2 then t.err else t.out

def Streams.set (t : Streams) (stream : Nat) (sink : Sink) : Streams :=
  if stream = 1 then { t with out := sink } else if stream = 2 then { t with err := sink } else t

/-- Carries out redirections, or tells why one of them cannot be. -/
def redirect (s : Session) (line : Nat) (streams : Streams) :
    List Redirection → Except Text (Session × Streams)
  | [] => .ok (s, streams)
  | .duplicate stream target :: rest =>
    match Decimal.ofDigits? (s.expandToText target) with
    | some n => s.redirect line (streams.set stream (streams.get n)) rest
    | none => .error (s.lead line ++ "Syntax error: Bad fd number\n")
  | .input source :: rest =>
    let name := s.expandToText source
    match s.directory.openFor name with
    | .ok _ => s.redirect line streams rest
    | .error _ => .error (s.lead line ++ "cannot open " ++ name ++ ": No such file\n")
  | .file stream append target :: rest =>
    let name := s.expandToText target
    if name = "/dev/null" then s.redirect line (streams.set stream .nowhere) rest
    else
      let before := if append then (s.directory.read name).toOption.getD [] else []
      match s.directory.write name before with
      | .ok directory =>
        { s with directory }.redirect line (streams.set stream (.file name)) rest
      | .error _ =>
        .error (s.lead line ++ "cannot create " ++ name ++
          (match s.directory.openFor name with
            | .ok .directory => ": Is a directory\n"
            | _ => ": Directory nonexistent\n" : String))

/-- The signals that a script can send, with what is said of a program that one of them killed. -/
def signals : List (String × Nat × String) :=
  [("HUP", 1, "Hangup"), ("INT", 2, ""), ("QUIT", 3, "Quit"), ("ABRT", 6, "Aborted"),
    ("KILL", 9, "Killed"), ("USR1", 10, "User defined signal 1"), ("SEGV", 11, "Segmentation fault"),
    ("USR2", 12, "User defined signal 2"), ("ALRM", 14, "Alarm clock"), ("TERM", 15, "Terminated")]

def killedLine (signal : Nat) : Text :=
  ((signals.find? (·.2.1 == signal)).map fun (_, _, what) => what).getD "" ++ "\n"

/-- The signal that an argument of `kill` names, after a dash. -/
def signalOf? (t : Text) : Option Nat :=
  match Decimal.ofDigits? t with
  | some n => some n
  | none => (signals.find? fun (name, _) => Text.ofString name == t).map (·.2.1)

/-- Takes over what a program wrote and how it ended. -/
def took (s : Session) (streams : Streams) (e : Effect) : Session :=
  let s := (s.write streams.out e.out).write streams.err e.err
  match e.ending with
  | .exited code => { s with status := code }
  | .killed signal => { s with err := s.err ++ killedLine signal, status := 128 + signal }

/-- `exit`: with the given code, or with that of the last command. -/
def exit (s : Session) (line : Nat) (streams : Streams) : List Text → Session
  | [] => { s with ending := some (.exited s.status) }
  | code :: _ =>
    match Decimal.ofDigits? code with
    | some n => { s with ending := some (.exited (n % 256)) }
    | none =>
      { s.write streams.err (s.lead line ++ "exit: Illegal number: " ++ code ++ "\n") with
        ending := some (.exited 2) }

/-- `kill`: only the script itself can be reached. -/
def kill (s : Session) (arguments : List Text) : Session :=
  let signal? := match arguments with
    | [_] => some 15
    | [45 :: name, _] => signalOf? name
    | [_, name, _] => signalOf? name
    | _ => none
  match signal? with
  | some 0 => { s with status := 0 }
  | some n =>
    if arguments.getLast? = some ownNumber then { s with ending := some (.killed n) }
    else { s with status := 1 }
  | none => { s with status := 2 }

/-- `shift`: the first parameter goes. -/
def shift (s : Session) (line : Nat) (streams : Streams) : Session :=
  match s.parameters with
  | _ :: rest => { s with parameters := rest, status := 0 }
  | [] =>
    { s.write streams.err (s.lead line ++ "shift: can't shift that many\n") with
      ending := some (.exited 2) }

def call (caller : Caller) (s : Session) (line : Nat) (streams : Streams) (name : Text)
    (arguments : List Text) : Session :=
  if name = ":" || name = "true" then { s with status := 0 }
  else if name = "false" then { s with status := 1 }
  else if name = "echo" then s.took streams (Program.shellEcho arguments)
  else if name = "printf" then
    s.took streams (Program.shellPrintf (s.lead line ++ "printf: ") arguments)
  else if name = "exit" then s.exit line streams arguments
  else if name = "kill" then s.kill arguments
  else if name = "shift" then s.shift line streams
  else
    let (effect, directory) := caller (s.lead line) s.directory (name :: arguments)
    { s with directory }.took streams effect

/-- Runs a command of one or more words; after `exec` it takes the place of the script. -/
def perform (caller : Caller) (s : Session) (line : Nat) (streams : Streams) (name : Text)
    (arguments : List Text) : Session :=
  match arguments with
  | program :: rest =>
    if name = "exec" then
      let (effect, directory) := caller (s.lead line) s.directory (program :: rest)
      let s := { s with directory }.took streams { effect with ending := .exited 0 }
      { s with ending := some effect.ending }
    else s.call caller line streams name arguments
  | [] => if name = "exec" then { s with status := 0 } else s.call caller line streams name []

def simple (caller : Caller) (s : Session) (c : Simple) : Session :=
  let assigned := c.words.takeWhile fun w => (s.assignment? w).isSome
  let fields := (c.words.drop assigned.length).flatMap s.expand
  match s.redirect c.line {} c.redirections with
  | .error what => { s with err := s.err ++ what, status := 2 }
  | .ok (s, streams) =>
    match fields with
    | [] =>
      let s := assigned.foldl (fun s w =>
        match s.assignment? w with
        | some (name, value) => s.assign name value
        | none => s) s
      { s with status := 0 }
    | name :: arguments => s.perform caller c.line streams name arguments

/-- Whether a command runs after one that ended with a code. -/
def isDue (status : Nat) : Connector → Bool
  | .always => true
  | .onSuccess => status == 0
  | .onFailure => status != 0

def items (caller : Caller) (s : Session) : List Item → Session
  | [] => s
  | item :: rest =>
    if s.ending.isSome then s
    else if isDue s.status item.connector then
      let s := s.simple caller item.command
      let isLast := (rest.head?.map fun i => i.connector == .always) != some false
      if s.stopsOnFailure && isLast && s.status != 0 && s.ending.isNone then
        { s with ending := some (.exited s.status) }
      else s.items caller rest
    else s.items caller rest

def stretches (caller : Caller) (s : Session) : List Stretch → Session
  | [] => s
  | .error m :: _ =>
    if s.ending.isSome then s
    else
      { s with
        err := s.err ++ s.lead m.line ++ "Syntax error: " ++ m.what ++ "\n"
        ending := some (.exited 2) }
  | .ok is :: rest => if s.ending.isSome then s else (s.items caller is).stretches caller rest

def run (caller : Caller) (s : Session) (script : Text) : Effect × Directory :=
  let s := s.stretches caller (Script.stretches script)
  ({ out := s.out, err := s.err, ending := s.ending.getD (.exited s.status) }, s.directory)

end Session

/-- How a shell is called: a script on the command line or in a file, the rest of the arguments, and
whether it stops at the first failing command. -/
structure Call where
  inline : Bool := false
  stopsOnFailure : Bool := false
  operands : List Text := []
  deriving DecidableEq, Repr

namespace Call

/-- Takes flags in a row, or tells the one that there is not. -/
def setLetters (c : Call) : Text → Except UInt8 Call
  | [] => .ok c
  | b :: rest =>
    if b = Text.ascii 'c' then { c with inline := true }.setLetters rest
    else if b = Text.ascii 'e' then { c with stopsOnFailure := true }.setLetters rest
    else if (Text.ofString "abfimnsuvxCEIV").contains b then c.setLetters rest
    else .error b

def parse (c : Call) : List Text → Except UInt8 Call
  | [] => .ok c
  | argument :: rest =>
    match argument with
    | [45, 45] | [45] => .ok { c with operands := rest }
    | 45 :: letters =>
      match c.setLetters letters with
      | .ok c => c.parse rest
      | .error b => .error b
    | _ => .ok { c with operands := argument :: rest }

end Call

/-- A shell that cannot start. -/
def refused (name what : Text) : Effect :=
  { err := name ++ ": 0: " ++ what ++ "\n", ending := .exited 2 }

def run (caller : Caller) (d : Directory) (name : Text) (arguments : List Text) :
    Effect × Directory :=
  match Call.parse {} arguments with
  | .error b => (refused name ("Illegal option -" ++ [b]), d)
  | .ok { inline := true, operands := [], .. } => (refused name "-c requires an argument", d)
  | .ok { inline := true, operands := script :: rest, stopsOnFailure } =>
    Session.run caller
      { name := rest.headD name, parameters := rest.tail, stopsOnFailure, directory := d } script
  | .ok { operands := [], .. } => ({}, d)
  | .ok { operands := file :: rest, stopsOnFailure, .. } =>
    match d.openFor file with
    | .error _ => (refused name ("cannot open " ++ file ++ ": No such file"), d)
    | .ok .directory => ({}, d)
    | .ok (.file script) =>
      Session.run caller { name := file, parameters := rest, stopsOnFailure, directory := d } script

end Shell

end Runsheet
