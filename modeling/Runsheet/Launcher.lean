import Runsheet.Execution
import Runsheet.Program

/-!
Launching a command of a plan: directly, or by handing its line to a shell.
-/
namespace Runsheet

/-- How commands are launched. An empty shell is none, an empty directory the working directory. -/
structure Launcher where
  shell : Text := []
  place : Text := []
  deriving DecidableEq, Repr

/-- A command that was launched: how it ended, what it wrote, and the directory after it. -/
structure Launched where
  outcome : Outcome
  out : Text := []
  err : Text := []
  directory : Directory
  deriving DecidableEq, Repr

inductive StartFault
  | notInstalled (name : Text)
  | isDirectory (name : Text)
  | unusable (path : Text) (fault : FileFault)
  deriving DecidableEq, Repr

def StartFault.message : StartFault → Text
  | notInstalled name => "exec: " ++ name.quoted ++ ": executable file not found in $PATH"
  | isDirectory name => "exec: " ++ name.quoted ++ ": is a directory"
  | unusable path fault => "fork/exec " ++ path ++ ": " ++ fault.message

namespace Launcher

def argv (l : Launcher) (c : Command) : List Text :=
  if l.shell.isEmpty then c.argv else [l.shell, "-c", c.line]

def placeFault? (l : Launcher) (d : Directory) : Option FileFault :=
  if l.place.isEmpty then none
  else
    match d.openFor l.place with
    | .ok .directory => none
    | .ok (.file _) => some .notDirectory
    | .error f => some f

/-- A name seen from the directory in which the command runs. -/
def fromPlace (l : Launcher) (path : Text) : Text :=
  if l.place.isEmpty || path.head? == some 47 then path else l.place ++ "/" ++ path

/-- The program to start. A name without a slash is looked for among the installed programs, any other
is the name of a file. -/
def start (l : Launcher) (d : Directory) (argv : List Text) : Except StartFault Program :=
  let name := argv.headD []
  let checked (path : Text) (found : Except FileFault Program) : Except StartFault Program :=
    if argv.any (·.contains 0) then .error (.unusable path .badName)
    else
      match l.placeFault? d with
      | some f => .error (.unusable path f)
      | none => found.mapError (StartFault.unusable path)
  if name = "/" then .error (.isDirectory name)
  else if name.contains 47 then checked name (Program.find d (l.fromPlace name))
  else
    match Program.ofName? name with
    | none => .error (.notInstalled name)
    | some p => checked ("/usr/bin/" ++ name) (.ok p)

/-- Launches a command and waits for it. One that is cancelled is killed before it does anything. -/
def launch (l : Launcher) (d : Directory) (c : Command) (canceled : Bool) :
    Except Violation Launched :=
  if c.tool.isEmpty then .error ⟨.precondition, "command has no tool"⟩
  else
    match l.start d (l.argv c) with
    | .error f =>
      .ok { outcome := ⟨1, some (.failed ("start " ++ c.tool ++ ": " ++ f.message))⟩, directory := d }
    | .ok p =>
      if canceled then
        .ok { outcome := ⟨-1, some (.failed "context canceled")⟩, directory := d }
      else
        let (effect, directory) := p.run d (l.argv c)
        .ok
          { outcome := match effect.ending with
              | .exited code => ⟨code, none⟩
              | .killed _ => ⟨-1, none⟩
            out := effect.out
            err := effect.err
            directory }

end Launcher

end Runsheet
