import Runsheet.CommandLine.Flag

/-!
What the program tells about itself: how to call it, its flags and its version.
-/
namespace Runsheet

namespace Flag

def description : Flag → String
  | config => "Settings file"
  | debug => "Enable debug output"
  | displayOptions => "Display the options of the main block and of every label"
  | displayTokens => "Display the script tokens"
  | displayToolAndInput => "Display the tool, the input sources and the commands"
  | dump => "Dump the choices, inputs and scopes as YAML"
  | help => "help for ischeme"
  | input => "Input source to use instead of the script's; repeatable"
  | noColor => "Disable colored output"
  | noLaunch => "Build and display the commands without launching them"
  | planOut => "Write the command plan to FILE and print its digest"
  | select => "Select a label of a choice, as CHOICE:LABEL (LABEL may be ALL); repeatable"
  | trace => "Trace engine activity: choices,cases,inputs,blocks,parsing,scanning"
  | version => "version for ischeme"
  | watch => "Run again whenever the script changes"

def valueName : Flag → String
  | f => match f.kind with
    | .switch => ""
    | .text => " string"
    | .texts => " stringArray"
    | .list => " strings"

/-- What holds when a flag is not given, where that is worth telling. -/
def standard : Flag → Text
  | config => " (default " ++ Text.quoted ({} : Options).config ++ ")"
  | _ => []

def spelling (f : Flag) : Text :=
  (match f.letter? with
    | some c => "  -" ++ c.toString ++ ", --"
    | none => "      --" : String) ++ f.name ++ f.valueName

end Flag

namespace CommandLine

/-- The lines about some flags, in two columns. -/
def flagLines (flags : List Flag) : Text :=
  let width := (flags.map fun f => f.spelling.length).foldl max 0
  flags.flatMap fun f =>
    f.spelling ++ Text.fill (width - f.spelling.length + 3) 32 ++ f.description ++ f.standard ++ "\n"

def usage (version : Text) : Text :=
  "Launch music formats tools as described by an iScheme script\n\nUsage:\n" ++
    "  ischeme [flags] SCRIPT\n\nFlags:\n" ++
    flagLines (if version.isEmpty then Flag.all.filter (· != .version) else Flag.all)

def versionLine (version : Text) : Text := "ischeme version " ++ version ++ "\n"

end CommandLine

end Runsheet
