import Runsheet.Shell.Quote

/-!
Command plans: the tool invocations that a script comes down to, in the order in which they run.
-/
namespace Runsheet

/-- One invocation of a tool. The choice and the label tell which block was added; they are empty
when none was. A command without an argument list differs from one whose list is empty. -/
structure Command where
  tool : Text
  input : Text
  choice : Text := []
  label : Text := []
  args : Option (List Text) := some []
  deriving DecidableEq, Repr

namespace Command

def argv (c : Command) : List Text := c.tool :: c.input :: c.args.getD []

def line (c : Command) : Text := Text.join " " (c.argv.map Shell.quote)

end Command

/-- A list of commands. A plan without a list differs from one whose list is empty. -/
structure Plan where
  commands : Option (List Command)
  deriving DecidableEq, Repr

namespace Plan

def toList (p : Plan) : List Command := p.commands.getD []

def size (p : Plan) : Nat := p.toList.length

def lines (p : Plan) : List Text := p.toList.map Command.line

end Plan

end Runsheet
