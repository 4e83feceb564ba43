import Runsheet.Script.Event

/-! Scripts as trees. A reader keeps no tree, so a tree is only a way to say which sequences of
events are scripts: the events of a tree are those of its parts in the order of the source. -/
namespace Runsheet

mutual

/-- The elements of an alternative: options and case statements, nested to any depth. -/
inductive Body
  | nil
  | option (name : Text) (value : Option Text) (rest : Body)
  | case (subject : Text) (alternatives : Alternatives) (rest : Body)

/-- One or more alternatives of a case statement, each with one or more labels and a body. -/
inductive Alternatives
  | last (label : Text) (labels : List Text) (body : Body)
  | cons (label : Text) (labels : List Text) (body : Body) (rest : Alternatives)

end

/-- A statement of a script. A declaration has one or more labels. -/
inductive Statement
  | tool (name : Text)
  | source (name : Text)
  | axis (kind : AxisKind) (name label : Text) (labels : List Text) (default : Option Text)
  | option (name : Text) (value : Option Text)
  | case (subject : Text) (alternatives : Alternatives)
  | select (choice label : Text)
  | every (choice : Text)

/-- The switch of an option. A value that is written counts even when it is empty. -/
def Switch.ofOption (name : Text) : Option Text → Switch
  | none => { name }
  | some value => { name, value, hasValue := true }

def labelEvents (label : Text) (labels : List Text) : List Event :=
  (label :: labels).map .addAlternativeLabel

mutual

def Body.events : Body → List Event
  | .nil => []
  | .option name value rest => .addSwitch (.ofOption name value) :: rest.events
  | .case subject alternatives rest =>
    .beginCase subject :: alternatives.events ++ .endCase :: rest.events

def Alternatives.events : Alternatives → List Event
  | .last label labels body =>
    .beginAlternative :: labelEvents label labels ++ body.events ++ [.endAlternative]
  | .cons label labels body rest =>
    .beginAlternative :: labelEvents label labels ++ body.events ++ .endAlternative :: rest.events

end

def Statement.events : Statement → List Event
  | .tool name => [.setTool name]
  | .source name => [.addSource name]
  | .axis kind name label labels default =>
    .declare kind name :: (label :: labels).map (.addLabel kind name) ++
      (default.map (.setDefault kind name)).toList
  | .option name value => [.addSwitch (.ofOption name value)]
  | .case subject alternatives => .beginCase subject :: alternatives.events ++ [.endCase]
  | .select choice label => [.select choice label]
  | .every choice => [.select choice allLabels]

def scriptEvents (script : List Statement) : List Event :=
  .beginScript :: script.flatMap Statement.events ++ [.endScript]

end Runsheet
