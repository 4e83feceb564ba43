import Runsheet.Axis

/-!
The events of a script. A reader reports every completed piece of a script as an event, in source
order; the engine takes nothing else.
-/
namespace Runsheet

/-- One piece of a script. A case statement is its beginning, its alternatives and its end; an
alternative is its beginning, its labels, its elements and its end. -/
inductive Event
  | beginScript
  | setTool (name : Text)
  | addSource (name : Text)
  | addSwitch (switch : Switch)
  | declare (kind : AxisKind) (name : Text)
  | addLabel (kind : AxisKind) (name label : Text)
  | setDefault (kind : AxisKind) (name label : Text)
  | beginCase (subject : Text)
  | beginAlternative
  | addAlternativeLabel (label : Text)
  | endAlternative
  | endCase
  | select (choice label : Text)
  | endScript
  deriving DecidableEq, Repr

end Runsheet
