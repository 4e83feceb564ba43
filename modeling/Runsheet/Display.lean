import Runsheet.Engine.Snapshot
import Runsheet.Terminal.Style

/-!
What a run shows on request: the tokens of the script, the switches it gathered, and its plan.
-/
namespace Runsheet

open Terminal (render)

namespace Display

/-- Fills up on the right with spaces to the given number of bytes; a longer text is left alone. -/
def padRight (width : Nat) (t : Text) : Text := t ++ Text.fill (width - t.length) 32

/-- A token with its place and, if it is malformed, what is wrong with it. -/
def tokenLine (t : Token) : Text :=
  Text.padLeft 4 32 (Text.decimal t.position.line) ++ ":" ++
    padRight 3 (Text.decimal t.position.column) ++ " " ++ padRight 9 t.kind.tag ++ " " ++ t.raw ++
    (match t.fault with
      | some f => "  (" ++ f.message ++ ")"
      | none => "" : String) ++ "\n"

def tokens (source : Text) : Text := (Tokens.ofSource source).toList.flatMap tokenLine

/-- The sources of some commands, with commands in a row for the same source counted once. -/
def sourcesOf : List Command → List Text
  | [] => []
  | [c] => [c.input]
  | c :: d :: rest => if c.input = d.input then sourcesOf (d :: rest)
      else c.input :: sourcesOf (d :: rest)

def commandLines (color : Bool) : (next : Nat) → List Text → Text
  | _, [] => []
  | n, line :: rest =>
    render color .dim (Text.padLeft 3 32 (Text.decimal n) ++ ".") ++ " " ++
      render color .command line ++ "\n" ++ commandLines color (n + 1) rest

/-- The tool, the sources and the commands of a plan. -/
def plan (color : Bool) (tool : Text) (p : Plan) : Text :=
  render color .heading "Tool:" ++ " " ++ tool ++ "\n" ++
    render color .heading "Inputs:" ++ " " ++ Text.join ", " (sourcesOf p.toList) ++ "\n" ++
    render color .heading ("Commands (" ++ Text.decimal p.size ++ "):") ++ "\n" ++
    commandLines color 1 p.lines

def switchLines (color : Bool) (indent : String) : List Switch → Text
  | [] => indent ++ render color .dim "(none)" ++ "\n"
  | switches => switches.flatMap fun s => indent ++ s.text ++ "\n"

def branch (color : Bool) (b : Branch) : Text :=
  "  " ++ b.label ++ "\n" ++ switchLines color "    " b.block.switches

/-- The heading of an axis: its sort, its name and its default label if it has one. -/
def axisHeading (a : Axis) : Text :=
  (match a.kind with
    | .choice => "Choice '"
    | .input => "Input '" : String) ++ a.name ++ "'" ++
    Text.onlyIf (!a.default.isEmpty) (" (default: " ++ a.default ++ ")") ++ ":"

def axis (color : Bool) (a : Axis) : Text :=
  render color .heading (axisHeading a) ++ "\n" ++ a.branches.flatMap (branch color)

def switches (color : Bool) (s : Snapshot) : Text :=
  render color .heading "Main options:" ++ "\n" ++ switchLines color "  " s.mainSwitches ++
    s.choices.flatMap (axis color) ++ s.inputAxes.flatMap (axis color)

end Display

end Runsheet
