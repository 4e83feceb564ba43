import Runsheet.Invocation

/-!
The command line. All that is done here is to read what a call may need, and to write what it leaves.
-/
namespace Runsheet

namespace Main

/-- Everything that comes from a stream, after what has come already. -/
partial def readAll (stream : IO.FS.Stream) (begun : ByteArray) : IO ByteArray := do
  let more ← stream.read 65536
  if more.isEmpty then return begun else readAll stream (begun ++ more)

/-- The files with some names, where they can be read. -/
def readFiles (names : List String) : IO (List (Location × Text)) :=
  names.filterMapM fun (name : String) => do
    try
      let content ← IO.FS.readBinFile name
      return some (Location.ofName (Text.ofString name), content.toList)
    catch _ => return none

/-- What the program finds when it is called with some arguments: the settings and the script are
among the files. -/
def surroundings (arguments : List String) : IO Surroundings := do
  let asked := (CommandLine.parse ({} : Surroundings).version (arguments.map Text.ofString)).toOption
  let config := ((asked.map (·.options.config)).bind fun t => String.fromUTF8? ⟨t.toArray⟩).toList
  let files ← readFiles (config ++ arguments)
  let stdin ← if arguments.contains "-" then readAll (← IO.getStdin) .empty else pure .empty
  let refusal ← IO.getEnv "NO_COLOR"
  return {
    directory := { files }
    stdin := stdin.toList
    refusesColor := (refusal.getD "") != "" }

def writeFiles (before after : Directory) : IO Unit :=
  for (place, content) in after.files do
    if !before.files.contains (place, content) then
      match String.fromUTF8? ⟨place.name.toArray⟩ with
      | some name => IO.FS.writeBinFile name ⟨content.toArray⟩
      | none => pure ()

end Main

end Runsheet

def main (arguments : List String) : IO UInt32 := do
  let s ← Runsheet.Main.surroundings arguments
  let (code, t) := Runsheet.answer s (arguments.map Runsheet.Text.ofString)
  Runsheet.Main.writeFiles s.directory t.directory
  (← IO.getStdout).write ⟨t.out.toArray⟩
  (← IO.getStderr).write ⟨t.err.toArray⟩
  return code.number.toUInt32
