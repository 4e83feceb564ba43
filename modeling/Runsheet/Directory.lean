import Runsheet.Text

/-!
The working directory: its files and the directories in it. Names of files are walked part by part,
so a part that is missing counts even when `..` follows it.
-/
namespace Runsheet

/-- A place in the file tree: from the top, or from the working directory and some levels above it. -/
structure Location where
  fromTop : Bool := false
  above : Nat := 0
  parts : List Text := []
  deriving DecidableEq, Repr

namespace Location

def enter (p : Location) (part : Text) : Location :=
  if part = "." then p
  else if part = ".." then
    if p.parts.isEmpty then { p with above := if p.fromTop then 0 else p.above + 1 }
    else { p with parts := p.parts.dropLast }
  else { p with parts := p.parts ++ [part] }

def origin (name : Text) : Location := { fromTop := name.head? == some 47 }

/-- The parts of a name; slashes in a row count once. -/
def partsOf (name : Text) : List Text := (name.splitAt 47).filter (!·.isEmpty)

def ofName (name : Text) : Location := (partsOf name).foldl enter (origin name)

/-- The directory around a place. -/
def parent (p : Location) : Location := p.enter ".."

/-- Whether a place is another or around it. -/
def holds (p q : Location) : Bool :=
  p.fromTop == q.fromTop && p.above == q.above && p.parts.isPrefixOf q.parts

def name (p : Location) : Text :=
  Text.onlyIf p.fromTop "/" ++ (List.replicate p.above (Text.ofString "../")).flatten ++
    Text.join "/" p.parts

end Location

/-- What a watched directory tells about one of its files. -/
inductive FileEvent
  | create
  | write
  | remove
  | rename
  | changeMode
  deriving DecidableEq, Repr

/-- Whether events mean that a file was changed or replaced. The name they come with may be written
differently. -/
def isChangeOf (target name : Text) (events : List FileEvent) : Bool :=
  Location.ofName name == Location.ofName target &&
    events.any fun e => e == .create || e == .write || e == .rename

inductive FileFault
  | missing
  | notDirectory
  | isDirectory
  | badName
  | longName
  | forbidden
  deriving DecidableEq, Repr

def FileFault.message : FileFault → String
  | missing => "no such file or directory"
  | notDirectory => "not a directory"
  | isDirectory => "is a directory"
  | badName => "invalid argument"
  | longName => "file name too long"
  | forbidden => "permission denied"

inductive Resident
  | file (content : Text)
  | directory
  deriving DecidableEq, Repr

/-- Files with their places, and directories besides those that hold a file. -/
structure Directory where
  files : List (Location × Text) := []
  directories : List Location := []
  deriving DecidableEq, Repr

namespace Directory

def systemDirectories : List String := ["/", "/bin", "/dev", "/etc", "/tmp", "/usr", "/usr/bin"]

/-- The files that there always are; they read as empty. -/
def systemFiles : List String :=
  "/dev/null" :: ["/bin/", "/usr/bin/"].flatMap fun place =>
    ["echo", "false", "printf", "sh", "sleep", "true"].map (place ++ ·)

/-- Whether a place is one of the directories that there always are; the working directory and those
around it are among them. -/
def isSystemDirectory (p : Location) : Bool :=
  (!p.fromTop && p.parts.isEmpty) || systemDirectories.any fun name => Location.ofName name == p

def isSystemFile (p : Location) : Bool := systemFiles.any fun name => Location.ofName name == p

/-- Whether a place is a directory: one that was made, or one that holds a file. -/
def hasDirectory (d : Directory) (p : Location) : Bool :=
  isSystemDirectory p || d.directories.any p.holds ||
    d.files.any fun (q, _) => p.holds q && p != q

/-- What is at a place. -/
def resident? (d : Directory) (p : Location) : Option Resident :=
  match d.files.find? (·.1 == p) with
  | some (_, content) => some (.file content)
  | none =>
    if d.hasDirectory p then some .directory
    else if isSystemFile p then some (.file [])
    else none

/-- Walks the parts of a name from a place; all but the last have to be directories. -/
def walk (d : Directory) (p : Location) : List Text → Except FileFault Location
  | [] => .ok p
  | part :: rest =>
    if part.length > 255 then .error .longName
    else
      match d.resident? p with
      | some .directory => d.walk (p.enter part) rest
      | some (.file _) => .error .notDirectory
      | none => .error .missing

/-- The place of a name, with the faults that the name itself may have. -/
def locate (d : Directory) (name : Text) : Except FileFault Location :=
  if name.contains 0 then .error .badName
  else if name.isEmpty then .error .missing
  else d.walk (Location.origin name) (Location.partsOf name)

def namesDirectory (name : Text) : Bool := name.getLast? == some 47

def openFor (d : Directory) (name : Text) : Except FileFault Resident :=
  match d.locate name with
  | .error f => .error f
  | .ok p =>
    match d.resident? p with
    | none => .error .missing
    | some (.file content) => if namesDirectory name then .error .notDirectory else .ok (.file content)
    | some .directory => .ok .directory

/-- A failed use of a file: what was tried, on which name, and why it failed. -/
def failed (what : String) (name : Text) (f : FileFault) : Text :=
  what ++ " " ++ name ++ ": " ++ f.message

/-- The content of a file, or what went wrong. A directory can be opened but not read. -/
def read (d : Directory) (name : Text) : Except (FileFault × Text) Text :=
  match d.openFor name with
  | .error f => .error (f, failed "open" name f)
  | .ok .directory => .error (.isDirectory, failed "read" name .isDirectory)
  | .ok (.file content) => .ok content

/-- Puts content at a place. The files that there always are do not change. -/
def put (d : Directory) (p : Location) (content : Text) : Directory :=
  if isSystemFile p then d
  else { d with files := d.files.filter (·.1 != p) ++ [(p, content)] }

/-- The directory with a new or changed file, or what went wrong. -/
def write (d : Directory) (name content : Text) : Except Text Directory :=
  match d.locate name with
  | .error f => .error (failed "open" name f)
  | .ok p =>
    match d.resident? p with
    | some .directory => .error (failed "open" name .isDirectory)
    | some (.file _) =>
      if namesDirectory name then .error (failed "open" name .notDirectory) else .ok (d.put p content)
    | none =>
      if namesDirectory name then .error (failed "open" name .isDirectory)
      else .ok (d.put p content)

end Directory

end Runsheet
