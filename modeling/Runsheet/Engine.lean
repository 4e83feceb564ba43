import Runsheet.CaseCheck
import Runsheet.Plan.Generate
import Runsheet.Script.Drive

/-!
The engine. It takes the events of a script one by one, gathers switches in blocks, keeps the
declared axes, checks case statements, and at the end of the script makes the plan. Nothing is taken
back when an event fails: the state that comes with a failure is the one in which it came up.
-/
namespace Runsheet

/-- What goes with a script: directives for its choices, sources that replace its own, and the tools
it may name without a warning (any tool, when there are none). -/
structure Config where
  directives : List Directive := []
  inputs : List Text := []
  knownTools : List Text := []
  deriving DecidableEq, Repr

/-- Everything the engine keeps between two events. An empty tool is none. Open case statements
stand innermost first. -/
structure State extends Resolver where
  tool : Text := []
  toolPos : Pos := .none
  sources : List Text := []
  scopes : Scopes := {}
  inputs : Registry := { kind := .input }
  cases : List CaseCheck := []
  choiceCaseOccurred : Bool := false
  caseOccurred : Bool := false
  plan : Option Plan := none
  done : Bool := false
  deriving DecidableEq, Repr

namespace State

def note (s : State) (concern : Concern) (message : String)
    (fields : List (String × LogValue)) : State :=
  { s with toResolver := s.toResolver.note (some concern) { message, fields } }

def warn (s : State) (w : Diagnostic) : State := { s with toResolver := s.toResolver.warn w }

def registry (s : State) : AxisKind → Registry
  | .choice => s.choices
  | .input => s.inputs

def otherRegistry (s : State) : AxisKind → Registry
  | .choice => s.inputs
  | .input => s.choices

def setRegistry (s : State) (kind : AxisKind) (r : Registry) : State :=
  match kind with
  | .choice => { s with choices := r }
  | .input => { s with inputs := r }

/-- The axis with a name, a choice before an input axis. -/
def axis? (s : State) (name : Text) : Option Axis :=
  (s.choices.get? name).orElse fun _ => s.inputs.get? name

def subjectOf (s : State) (c : CaseCheck) : Axis :=
  ((s.registry c.kind).get? c.subject).getD { kind := c.kind, name := c.subject, declared := c.pos }

def currentCase (s : State) : Except Violation CaseCheck :=
  match s.cases with
  | c :: _ => .ok c
  | [] => .error ⟨.precondition, "no open case statement"⟩

def setCurrentCase (s : State) (c : CaseCheck) : State := { s with cases := c :: s.cases.tail }

def beginScript (s : State) : State × Option Failure :=
  if s.scopes.depth ≠ 0 then (s, some (.violation ⟨.precondition, "script already begun"⟩))
  else
    let s := { s with scopes := s.scopes.push "main" }
    (s.note .blocks "push block" [("name", .text "main"), ("depth", .number s.scopes.depth)], none)

def toolSet (s : State) (pos : Pos) : Diagnostic :=
  { kind := .duplicateDeclaration, pos
    text := "tool is already set to '" ++ s.tool ++ "' at " ++ s.toolPos.text }

/-- Sets the tool, unless one is set. A tool that is not known is a warning. -/
def setTool (config : Config) (s : State) (name : Text) (pos : Pos) : State × Option Failure :=
  if !s.tool.isEmpty then (s, some (.diagnostic (s.toolSet pos)))
  else
    let s := ({ s with tool := name, toolPos := pos }).note .inputs "tool" [("name", .text name)]
    if config.knownTools.isEmpty || config.knownTools.contains name then (s, none)
    else (s.warn
      { Diagnostic.warn pos ("tool '" ++ name ++ "' is not a known tool") with
        suggestion := Suggestion.closest name config.knownTools }, none)

/-- Adds an input source. A source given twice is a warning and counts twice. -/
def addSource (s : State) (name : Text) (pos : Pos) : State × Option Failure :=
  let s := if s.sources.contains name then
      s.warn (.warn pos ("input '" ++ name ++ "' is given more than once"))
    else s
  (({ s with sources := s.sources ++ [name] }).note .inputs "input source" [("name", .text name)],
    none)

def addSwitch (s : State) (switch : Switch) : State × Option Failure :=
  match s.scopes.register switch with
  | (scopes, .error v) => ({ s with scopes }, some (.violation v))
  | (scopes, .ok top) =>
    (({ s with scopes }).note .blocks "option"
      [("block", .text top.name), ("name", .text switch.name), ("value", .text switch.value)], none)

/-- Declares an axis. Choices and input axes share their names, since a case statement may be over
either. -/
def declare (s : State) (kind : AxisKind) (name : Text) (pos : Pos) : State × Option Failure :=
  let other := s.otherRegistry kind
  match other.get? name with
  | some previous => (s, some <| .diagnostic
      { kind := .duplicateDeclaration, pos
        text := (s.registry kind).called name ++ " is already declared as " ++ other.kind.name ++
          " at " ++ previous.declared.text })
  | none =>
    match (s.registry kind).declare name pos with
    | (r, some f) => (s.setRegistry kind r, some f)
    | (r, none) => ((s.setRegistry kind r).note (.ofKind kind) "declare"
        [("kind", .text kind.name), ("name", .text name)], none)

def addLabel (s : State) (kind : AxisKind) (name label : Text) (pos : Pos) :
    State × Option Failure :=
  match (s.registry kind).addLabel name label pos with
  | (r, some f) => (s.setRegistry kind r, some f)
  | (r, none) => ((s.setRegistry kind r).note (.ofKind kind) "label"
      [("kind", .text kind.name), ("name", .text name), ("label", .text label)], none)

def setDefault (s : State) (kind : AxisKind) (name label : Text) (pos : Pos) :
    State × Option Failure :=
  match (s.registry kind).setDefault name label pos with
  | (r, some f) => (s.setRegistry kind r, some f)
  | (r, none) => ((s.setRegistry kind r).note (.ofKind kind) "default"
      [("kind", .text kind.name), ("name", .text name), ("label", .text label)], none)

def beginCase (s : State) (subject : Text) (pos : Pos) : State × Option Failure :=
  match s.axis? subject with
  | none => (s, some <| .diagnostic
      { kind := .unknownName, pos
        text := "'" ++ subject ++ "' in case statement is neither a choice nor an input"
        suggestion := Suggestion.closest subject (s.choices.names ++ s.inputs.names) })
  | some axis =>
    let used := (s.registry axis.kind).modify subject ({ · with usedInCase := true })
    let s := s.setRegistry axis.kind used
    let s := { s with cases := .start axis pos :: s.cases }
    (s.note .cases "begin case"
      [("subject", .text subject), ("kind", .text axis.kind.name),
        ("depth", .number s.cases.length)], none)

/-- Opens an alternative of the innermost case statement, and a block for its switches. -/
def beginAlternative (s : State) : State × Option Failure :=
  match s.currentCase with
  | .error v => (s, some (.violation v))
  | .ok c =>
    match c.beginAlternative with
    | (c, some f) => (s.setCurrentCase c, some f)
    | (c, none) =>
      let s := s.setCurrentCase c
      let name := c.subject ++ " alternative"
      let s := { s with scopes := s.scopes.push name }
      (s.note .blocks "push block" [("name", .text name), ("depth", .number s.scopes.depth)], none)

def addAlternativeLabel (s : State) (label : Text) (pos : Pos) : State × Option Failure :=
  match s.currentCase with
  | .error v => (s, some (.violation v))
  | .ok c =>
    match c.addLabel (s.subjectOf c) label pos with
    | (c, some f) => (s.setCurrentCase c, some f)
    | (c, none) => ((s.setCurrentCase c).note .cases "case label"
        [("subject", .text c.subject), ("label", .text label)], none)

/-- Closes the open alternative: its switches are added to the block of each of its labels in turn.
If its block turns out to be the only one, the alternative is closed and its block stays; if a label
turns out to have no block, its own block is gone as well and the labels before have its switches. -/
def endAlternative (s : State) : State × Option Failure :=
  match s.currentCase with
  | .error v => (s, some (.violation v))
  | .ok c =>
    match c.endAlternative with
    | (c, some f) => (s.setCurrentCase c, some f)
    | (c, none) =>
      let s := s.setCurrentCase c
      match s.scopes.pop with
      | (scopes, .error v) => ({ s with scopes }, some (.violation v))
      | (scopes, .ok block) =>
        let s := { s with scopes }
        let enriched := (s.registry c.kind).modify c.subject (·.enrich c.current block)
        let enrichedState := s.setRegistry c.kind enriched
        match ((s.subjectOf c).blocks.absorb block c.current).2 with
        | some v => (enrichedState, some (.violation v))
        | none => (enrichedState.note .blocks "pop block"
            [("name", .text block.name), ("options", .number block.switches.length),
              ("labels", .list c.current), ("depth", .number scopes.depth)], none)

/-- Closes the innermost case statement. When labels are missing it stays open, marked as closed. -/
def endCase (s : State) (pos : Pos) : State × Option Failure :=
  match s.currentCase with
  | .error v => (s, some (.violation v))
  | .ok c =>
    match c.close (s.subjectOf c) pos with
    | (c, some f) => (s.setCurrentCase c, some f)
    | (c, none) =>
      let s := { s with
        cases := s.cases.tail
        caseOccurred := true
        choiceCaseOccurred := s.choiceCaseOccurred || c.kind == AxisKind.choice }
      (s.note .cases "end case" [("subject", .text c.subject), ("depth", .number s.cases.length)],
        none)

def select (config : Config) (s : State) (choice label : Text) (pos : Pos) :
    State × Option Failure :=
  match s.toResolver.selectInScript config.directives choice label pos with
  | (r, some d) => ({ s with toResolver := r }, some (.diagnostic d))
  | (r, none) => ({ s with toResolver := r }, none)

/-- The sources of the plan: those that go with the script, else the script's own, else the default
of the only input axis. -/
def resolveSources (config : Config) (s : State) : State × Option (List Text) :=
  if !config.inputs.isEmpty then
    (if s.sources.isEmpty then s
      else s.note .inputs "script inputs overridden"
        [("script", .list s.sources), ("options", .list config.inputs)], some config.inputs)
  else if !s.sources.isEmpty then (s, some s.sources)
  else match s.inputs.axes with
    | [axis] => (s, axis.defaultLabel?.map ([·]))
    | _ => (s, none)

def endViolation? (s : State) : Option Violation :=
  if s.done then some ⟨.precondition, "script already ended"⟩
  else if s.scopes.depth ≠ 1 then
    some ⟨.invariant, "options block stack depth is " ++ Text.decimal s.scopes.depth ++
      " at end of script, expected 1"⟩
  else if s.cases.length ≠ 0 then
    some ⟨.invariant, Text.decimal s.cases.length ++ " case statement(s) still open at end of script"⟩
  else none

def makePlan (config : Config) (s : State) (selections : List Selection) (pos : Pos) :
    State × Option Failure :=
  if s.tool.isEmpty then
    (s, some (.diagnostic { kind := .missingTool, pos, text := "no 'tool:' statement in script" }))
  else match s.resolveSources config with
    | (s, none) => (s, some (.diagnostic
        { kind := .noInputSource, pos
          text := "no input source: add an 'input:' statement or use '--input'" }))
    | (s, some sources) =>
      match s.scopes.main with
      | .error v => (s, some (.violation v))
      | .ok main =>
        let recipe : Recipe :=
          { tool := s.tool, sources, main := some main, inputs := s.inputs.axes
            choices := s.choices, selections }
        match recipe.generate with
        | .error v => (s, some (.violation v))
        | .ok plan =>
          let record : LogRecord :=
            { message := "plan built"
              fields := [("commands", .number plan.size), ("sources", .number sources.length),
                ("selections", .number selections.length)] }
          ({ s with plan := some plan, toResolver := s.toResolver.note none record }, none)

/-- Ends the script: directives are applied, labels resolved and the plan made. From the first of
these steps on the script counts as ended, also when one of them fails. -/
def endScript (config : Config) (s : State) (pos : Pos) : State × Option Failure :=
  match s.endViolation? with
  | some v => (s, some (.violation v))
  | none =>
    let s := { s with done := true }
    match s.toResolver.applyDirectives config.directives with
    | (r, some d) => ({ s with toResolver := r }, some (.diagnostic d))
    | (r, none) =>
      match r.resolve s.choiceCaseOccurred pos with
      | (r, .error d) => ({ s with toResolver := r }, some (.diagnostic d))
      | (r, .ok selections) => makePlan config { s with toResolver := r } selections pos

/-- Takes one event. The state handed back with a failure is the one in which the failure came up. -/
def take (config : Config) (s : State) (e : Event) (pos : Pos) : State × Option Failure :=
  match e with
  | .beginScript => s.beginScript
  | .setTool name => setTool config s name pos
  | .addSource name => s.addSource name pos
  | .addSwitch switch => s.addSwitch switch
  | .declare kind name => s.declare kind name pos
  | .addLabel kind name label => s.addLabel kind name label pos
  | .setDefault kind name label => s.setDefault kind name label pos
  | .beginCase subject => s.beginCase subject pos
  | .beginAlternative => s.beginAlternative
  | .addAlternativeLabel label => s.addAlternativeLabel label pos
  | .endAlternative => s.endAlternative
  | .endCase => s.endCase pos
  | .select choice label => select config s choice label pos
  | .endScript => endScript config s pos

/-- Takes one event and tells what went wrong. -/
def step (config : Config) (s : State) (e : Event) (pos : Pos) : State × Option Diagnostic :=
  let (s', failure) := s.take config e pos
  (s', failure.map Failure.toDiagnostic)

/-- Acts on a report: an event is taken, a trace record goes into the journal. -/
def receive (config : Config) (s : State) : Emission → State × Option Diagnostic
  | .note record => ({ s with toResolver := s.toResolver.note (some .parsing) record }, none)
  | .event e pos => s.step config e pos

end State

/-- Runs a script from its source. -/
def runScript (config : Config) (s : State) (source : Text) : State × Option (Stop Diagnostic) :=
  (Tokens.ofSource source).drive (State.receive config) s

end Runsheet
