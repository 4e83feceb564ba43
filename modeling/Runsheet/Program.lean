import Runsheet.Shell.Run

/-!
The programs that a command can name. A shell script may call them too.
-/
namespace Runsheet

inductive Program
  | echo
  | fail
  | printf
  | sh
  | sleep
  | succeed
  deriving DecidableEq, Repr

namespace Program

def all : List Program := [echo, fail, printf, sh, sleep, succeed]

def name : Program → String
  | echo => "echo"
  | fail => "false"
  | printf => "printf"
  | sh => "sh"
  | sleep => "sleep"
  | succeed => "true"

def ofName? (t : Text) : Option Program := all.find? fun p => Text.ofString p.name == t

def ofLocation? (p : Location) : Option Program :=
  all.find? fun q =>
    Location.ofName (Text.ofString ("/bin/" ++ q.name)) == p ||
      Location.ofName (Text.ofString ("/usr/bin/" ++ q.name)) == p

def find (d : Directory) (path : Text) : Except FileFault Program :=
  match d.locate path with
  | .error f => .error f
  | .ok p =>
    match d.resident? p with
    | none => .error .missing
    | some .directory => .error .forbidden
    | some (.file _) =>
      if Directory.namesDirectory path then .error .notDirectory
      else
        match ofLocation? p with
        | some q => .ok q
        | none => .error .forbidden

/-- Runs a program with its name and arguments; `caller` tells what a script calls. -/
def runWith (caller : Shell.Caller) (p : Program) (d : Directory) (name : Text)
    (arguments : List Text) : Effect × Directory :=
  match p with
  | echo => (Program.standaloneEcho arguments, d)
  | fail => (.exit 1, d)
  | printf => (Program.standalonePrintf name arguments, d)
  | sh => Shell.run caller d name arguments
  | sleep => (Program.pause name arguments, d)
  | succeed => ({}, d)

/-- What the shell says about a command that it cannot run. -/
def uncallable (lead name : Text) (what : String) (code : Nat) : Effect :=
  { err := lead ++ name ++ ": " ++ what ++ "\n", ending := .exited code }

/-- Calls a program from a script; scripts may call each other so many times deep. -/
def call : (depth : Nat) → Shell.Caller
  | 0, lead, d, argv => (uncallable lead (argv.headD []) "Cannot fork" 2, d)
  | n + 1, lead, d, argv =>
    let name := argv.headD []
    let run (p : Program) := p.runWith (call n) d name argv.tail
    if name.isEmpty then (uncallable lead name "Permission denied" 127, d)
    else if name.contains 47 then
      match find d name with
      | .ok p => run p
      | .error .missing | .error .notDirectory => (uncallable lead name "not found" 127, d)
      | .error .longName => (uncallable lead name "File name too long" 127, d)
      | .error _ => (uncallable lead name "Permission denied" 126, d)
    else
      match ofName? name with
      | some p => run p
      | none => (uncallable lead name "not found" 127, d)

/-- How deep scripts may call each other. -/
def maxDepth : Nat := 100

def run (p : Program) (d : Directory) (argv : List Text) : Effect × Directory :=
  p.runWith (call maxDepth) d (argv.headD []) argv.tail

end Program

end Runsheet
