import Runsheet.Terminal.Width

/-!
Styled text. With or without color, tabs become spaces and a text of several lines becomes a block of
equal width; with color, each line is put between the codes that set and reset its style.
-/
namespace Runsheet

namespace Terminal

inductive Style
  | error
  | warning
  | hint
  | dim
  | heading
  | command
  deriving DecidableEq, Repr

namespace Style

def codes : Style → String
  | error => "1;91"
  | warning => "1;38;5;214"
  | hint => "38;5;81"
  | dim => "38;5;240"
  | heading => "1"
  | command => "38;5;42"

def paint (s : Style) (line : Text) : Text := "\x1b[" ++ s.codes ++ "m" ++ line ++ "\x1b[0m"

end Style

def withoutTabs (t : Text) : Text := t.flatMap fun b => if b = 9 then "    " else [b]

def withoutReturns : Text → Text
  | [] => []
  | 13 :: 10 :: rest => 10 :: withoutReturns rest
  | b :: rest => b :: withoutReturns rest

/-- Fills up every line, as it is shown, to the width of the widest. -/
def block (shown : Text → Text) (lines : List Text) : List Text :=
  let widest := (lines.map width).foldl max 0
  lines.map fun line => shown line ++ Text.fill (widest - width line) 32

def render (color : Bool) (style : Style) (t : Text) : Text :=
  let lines := (withoutReturns (withoutTabs t)).splitAt 10
  Text.join "\n" (block (if color then style.paint else id) lines)

end Terminal

end Runsheet
