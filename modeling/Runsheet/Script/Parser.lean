import Runsheet.Script.Reading

/-!
The grammar of scripts. Reading keeps no tree: the place in the nesting of case statements is all
that has to be known between two constructs, and every construct takes at least one token.
-/
namespace Runsheet

namespace Reader

variable {m : Type → Type} [Monad m] [Reports m]

/-- Labels divided by bars, each reported by its own event. -/
def labels (context : Construct) (event : Text → Event) : Reader m Unit := fun eof tokens => do
  match ← label context eof tokens with
  | .error e => pure (.error e)
  | .ok (text, rest) =>
    report (.event (event text) (tokens.headD eof).pos)
    match rest with
    | [] => pure (.ok ((), []))
    | bar :: rest' =>
      if bar.kind = .bar then
        if rest'.length < tokens.length then labels context event eof rest'
        else pure (.ok ((), rest'))
      else pure (.ok ((), rest))
termination_by _ tokens => tokens.length

/-- Reports that a construct starts on a line. -/
def enter (rule : String) (token : Token) : Reader m Unit :=
  note { message := rule, fields := [("line", .number token.position.line)] }

/-- `tool: NAME;` -/
def toolStatement : Reader m Unit := do
  enter "→ toolStatement" (← current)
  let _ ← advance
  let _ ← expect .colon .toolStatement
  let token ← current
  let name ← word .toolStatement
  let _ ← expect .semicolon .toolStatement
  emit (.setTool name) token.pos

/-- `input: NAME;` -/
def inputStatement : Reader m Unit := do
  enter "→ inputStatement" (← current)
  let _ ← advance
  let _ ← advance
  let token ← current
  let name ← word .inputStatement
  let _ ← expect .semicolon .inputStatement
  emit (.addSource name) token.pos

/-- `, default: LABEL`, when a comma comes next. -/
def defaultClause (kind : AxisKind) (name : Text) : Reader m Unit := do
  if ← accept .comma then
    let _ ← expect (.keyword .default) (.declaration kind)
    let _ ← expect .colon .defaultLabel
    let token ← current
    let text ← label .defaultLabel
    emit (.setDefault kind name text) token.pos

/-- `choice NAME: LABEL | LABEL, default: LABEL;`, or the same for an input axis. -/
def declaration (kind : AxisKind) : Reader m Unit := do
  let context := Construct.declaration kind
  note
    { message := "→ axisDeclaration"
      fields := [("kind", .text context.name), ("line", .number (← current).position.line)] }
  let _ ← advance
  let token ← expect .name context
  let name := token.value
  emit (.declare kind name) token.pos
  let _ ← expect .colon context
  labels context (.addLabel kind name)
  defaultClause kind name
  let _ ← expect .semicolon context
  return ()

/-- `select NAME: LABEL;` -/
def selectStatement : Reader m Unit := do
  enter "→ selectStatement" (← current)
  let _ ← advance
  let token ← expect .name .selectStatement
  let _ ← expect .colon .selectStatement
  let text ← label .selectStatement
  let _ ← expect .semicolon .selectStatement
  emit (.select token.value text) token.pos

/-- `every NAME;`, which selects all labels. -/
def everyStatement : Reader m Unit := do
  enter "→ everyStatement" (← current)
  let _ ← advance
  let token ← expect .name .everyStatement
  let _ ← expect .semicolon .everyStatement
  emit (.select token.value allLabels) token.pos

/-- Whether a reserved word is the value of an option: `default` always is, any other unless a colon
or a name after it makes it the start of a statement. -/
def isKeywordValue (token following : Token) : Bool :=
  match token.kind with
  | .keyword .default => true
  | .keyword _ => following.kind ≠ .colon && following.kind ≠ .name
  | _ => false

/-- One word, or two words joined by `=` or `:` when all three touch. -/
def compoundValue : Reader m Text := do
  let value := (← advance).value
  let separator ← current
  let second ← following
  if (separator.kind = .equals || separator.kind = .colon) && !separator.spaced &&
      second.kind.isWord && !second.spaced then
    let _ ← advance
    let _ ← advance
    return value ++ (if separator.kind = .equals then "=" else ":" : Text) ++ second.value
  else return value

/-- An option and its value, if it has one. -/
def option : Reader m Unit := do
  let token ← advance
  note { message := "→ option", fields := [("name", .text token.raw)] }
  let name := token.raw
  let first ← current
  match first.kind with
  | .string => emit (.addSwitch { name, value := ← strings, hasValue := true }) token.pos
  | .name | .integer | .double =>
    emit (.addSwitch { name, value := ← compoundValue, hasValue := true }) token.pos
  | .illegal => fail (.illegal first)
  | _ =>
    if isKeywordValue first (← following) then
      emit (.addSwitch { name, value := ← compoundValue, hasValue := true }) token.pos
    else emit (.addSwitch { name }) token.pos

/-- `case NAME:` up to its first alternative. The result is the subject. -/
def caseHeader (context : Construct) : Reader m Text := do
  let token ← advance
  enter "→ caseStatement" token
  let subject ← expect .name context
  emit (.beginCase subject.value) subject.pos
  let _ ← expect .colon context
  let first ← current
  if first.kind = .semicolon then
    fail { (SyntaxError.ofToken first "no alternative").within context with
      suggestion := "give each label of '" ++ subject.value ++ "' an alternative" }
  else return subject.value

def alternativeHeader : Reader m Unit := do
  let token ← current
  enter "→ alternative" token
  emit .beginAlternative token.pos
  labels .alternative .addAlternativeLabel
  let _ ← expect .colon .alternative
  return ()

end Reader

/-- A place in a script: among the statements, among the alternatives of a case statement, or among
the elements of an alternative. The subject is kept with each open case statement. -/
inductive Place
  | statements
  | alternatives (subject : Text) (outer : Place)
  | elements (subject : Text) (outer : Place)
  deriving DecidableEq, Repr

namespace Place

open Reader

variable {m : Type → Type} [Monad m] [Reports m]

def statementStarts : List TokenKind :=
  [.keyword .tool, .keyword .input, .keyword .choice, .keyword .case, .keyword .select,
    .keyword .every, .option]

/-- Reads one statement up to its end, or up to the first alternative of a case statement. -/
def statement : Reader m Place := do
  match (← current).kind with
  | .keyword .tool => toolStatement; return statements
  | .keyword .input =>
    if (← following).kind = .colon then inputStatement else declaration .input
    return statements
  | .keyword .choice => declaration .choice; return statements
  | .keyword .case => return alternatives (← caseHeader .caseStatement) statements
  | .keyword .select => selectStatement; return statements
  | .keyword .every => everyStatement; return statements
  | .option => option; return statements
  | _ => unexpected .script statementStarts

/-- Reads the end of a case statement, or the labels of its next alternative. -/
def nextAlternative (subject : Text) (outer : Place) : Reader m Place := do
  if (← current).kind = .semicolon then
    let token ← advance
    note { message := "← caseStatement", fields := [("subject", .text subject)] }
    emit .endCase token.pos
    return outer
  else
    alternativeHeader
    return elements subject outer

def element (subject : Text) (outer : Place) : Reader m Place := do
  match (← current).kind with
  | .semicolon =>
    let token ← advance
    emit .endAlternative token.pos
    return alternatives subject outer
  | .option => option; return elements subject outer
  | .keyword .case =>
    return alternatives (← caseHeader .nestedCaseStatement) (elements subject outer)
  | _ => unexpected .alternative [.option, .keyword .case, .semicolon]

/-- Reads the next construct at a place. -/
def step : Place → Reader m Place
  | statements => statement
  | alternatives subject outer => nextAlternative subject outer
  | elements subject outer => element subject outer

end Place

inductive ParseFailure
  | syntaxError (e : SyntaxError)
  | stuck (v : Violation)
  deriving DecidableEq, Repr

def ParseFailure.named (filename : Text) : ParseFailure → ParseFailure
  | .syntaxError e => .syntaxError { e with filename }
  | .stuck v => .stuck v

/-- Reads from a place to the end of the script. The answer tells why reading stopped early. -/
def Place.readOn {m : Type → Type} [Monad m] [Reports m] (eof : Token) (place : Place)
    (tokens : List Token) : m (Option ParseFailure) := do
  if place = .statements ∧ tokens = [] then
    report (.note { message := "← script" })
    report (.event .endScript eof.pos)
    pure none
  else
    match ← place.step eof tokens with
    | .error e =>
      report (.note e.record)
      pure (some (.syntaxError e))
    | .ok (place', rest) =>
      if rest.length < tokens.length then place'.readOn eof rest
      else pure (some (.stuck ⟨.invariant, "parser stuck before " ++
        Text.decimal tokens.length ++ " tokens"⟩))
termination_by tokens.length

def Tokens.read {m : Type → Type} [Monad m] [Reports m] (tokens : Tokens) :
    m (Option ParseFailure) := do
  report (.note
    { message := "→ script", fields := [("tokens", .number tokens.toList.length)] })
  report (.event .beginScript (tokens.body.headD tokens.eof).pos)
  Place.statements.readOn tokens.eof tokens.body

def Token.record (t : Token) : LogRecord :=
  { message := "scanned"
    fields := [("type", .text t.kind.tag), ("text", .text t.raw),
      ("line", .number t.position.line), ("column", .number t.position.column)] }

end Runsheet
