import Runsheet.Script.Event
import Runsheet.Script.SyntaxError
import Runsheet.Token.Scan

/-!
Steps of reading tokens. A step takes tokens from the front of a list, reports events and trace
records as it goes, and ends with a value or a syntax error. Whoever is reported to decides what a
report means, and may leave the reading at any of them; what was reported before stands.
-/
namespace Runsheet

/-- Something reported while a script is read. -/
inductive Emission
  | note (record : LogRecord)
  | event (e : Event) (pos : Pos)
  deriving DecidableEq, Repr

/-- Computations in the midst of which something can be reported. -/
class Reports (m : Type → Type) where
  report : Emission → m Unit

export Reports (report)

/-- A step of reading, given the end token and the tokens before it: a value with the tokens left, or
an error. -/
def Reader (m : Type → Type) (α : Type) : Type :=
  Token → List Token → m (Except SyntaxError (α × List Token))

namespace Reader

variable {m : Type → Type} [Monad m] {α β : Type}

protected def pure (a : α) : Reader m α := fun _ tokens => pure (.ok (a, tokens))

/-- One step and then another, which may depend on the first one's value. An error of the first is
handed on at once. -/
protected def bind (first : Reader m α) (second : α → Reader m β) : Reader m β := fun eof tokens => do
  match ← first eof tokens with
  | .error e => pure (.error e)
  | .ok (a, rest) => second a eof rest

instance : Monad (Reader m) where
  pure := Reader.pure
  bind := Reader.bind

section reports

variable [Reports m]

def note (record : LogRecord) : Reader m Unit := fun _ tokens => do
  report (.note record)
  pure (.ok ((), tokens))

def emit (e : Event) (pos : Pos) : Reader m Unit := fun _ tokens => do
  report (.event e pos)
  pure (.ok ((), tokens))

end reports

def fail (e : SyntaxError) : Reader m α := fun _ _ => pure (.error e)

/-- The next token, not taken; the end token when there is no other. -/
def current : Reader m Token := fun eof tokens => pure (.ok (tokens.headD eof, tokens))

/-- The token after the next one, not taken. -/
def following : Reader m Token := fun eof tokens => pure (.ok (tokens.tail.headD eof, tokens))

/-- Takes the next token. The end token is never used up. -/
def advance : Reader m Token := fun eof tokens => pure (.ok (tokens.headD eof, tokens.tail))

end Reader

def Token.pos (t : Token) : Pos := ⟨t.position.line, t.position.column⟩

/-- The constructs of a script that errors name. -/
inductive Construct
  | script
  | toolStatement
  | inputStatement
  | declaration (kind : AxisKind)
  | defaultLabel
  | caseStatement
  | nestedCaseStatement
  | alternative
  | selectStatement
  | everyStatement
  deriving DecidableEq, Repr

namespace Construct

def name : Construct → String
  | script => "script"
  | toolStatement => "tool statement"
  | inputStatement => "input statement"
  | declaration .choice => "choice declaration"
  | declaration .input => "input declaration"
  | defaultLabel => "default label"
  | caseStatement => "case statement"
  | nestedCaseStatement => "nested case statement"
  | alternative => "case alternative"
  | selectStatement => "select statement"
  | everyStatement => "every statement"

def sample : Construct → String
  | script => "tool: xml2ly;"
  | toolStatement => "tool: xml2ly;"
  | inputStatement => "input: \"my piece.xml\";"
  | declaration .choice => "choice layout: score | part, default: score;"
  | declaration .input => "input voice: soprano.xml | alto.xml, default: soprano.xml;"
  | defaultLabel => "default: score"
  | caseStatement => "case layout: score: -page-size A4; part: -page-size A5; ;"
  | nestedCaseStatement => "case paper: a4: -paper a4; letter: -paper letter; ;"
  | alternative => "score | part: -title X;"
  | selectStatement => "select layout: part;"
  | everyStatement => "every layout;"

end Construct

/-- An error about a token, without a context. -/
def SyntaxError.ofToken (t : Token) (text : Text) : SyntaxError :=
  { pos := t.pos, offset := t.position.offset, text, got := t.kind, gotText := t.raw }

def SyntaxError.within (e : SyntaxError) (c : Construct) : SyntaxError :=
  { e with context := c.name, sample := c.sample }

def SyntaxError.illegal (t : Token) : SyntaxError :=
  { SyntaxError.ofToken t ((t.fault.map fun f => Text.ofString f.message).getD []) with
    suggestion := Text.onlyIf (t.fault = some .unterminatedString)
      "close the string on the same line" }

/-- The text of an error about a token that is not among the expected kinds. -/
def SyntaxError.unexpectedText (t : Token) : List TokenKind → Text
  | [k] => "missing " ++ k.describe
  | _ =>
    match t.text with
    | some text =>
      if t.kind = .string then "unexpected " ++ t.kind.describe else "unexpected '" ++ text ++ "'"
    | none => "unexpected " ++ t.kind.describe

def SyntaxError.unexpected (t : Token) (context : Construct) (expected : List TokenKind) :
    SyntaxError :=
  if t.kind = .illegal then .illegal t
  else
    { (SyntaxError.ofToken t (unexpectedText t expected)).within context with
      expected
      suggestion := Text.onlyIf (expected = [.semicolon]) "end the statement with ';'" }

namespace Reader

variable {m : Type → Type} [Monad m]

def unexpected {α : Type} (context : Construct) (expected : List TokenKind) : Reader m α := do
  fail (.unexpected (← current) context expected)

def expect (kind : TokenKind) (context : Construct) : Reader m Token := do
  if (← current).kind = kind then advance else unexpected context [kind]

def accept (kind : TokenKind) : Reader m Bool := do
  if (← current).kind = kind then
    let _ ← advance
    return true
  else return false

/-- Takes string tokens as long as there are any; their values are put together. -/
def strings : Reader m Text := fun _ tokens =>
  pure (.ok ((tokens.takeWhile (·.kind = .string)).flatMap Token.value,
    tokens.dropWhile (·.kind = .string)))

/-- A name, or strings put together. -/
def word (context : Construct) : Reader m Text := do
  match (← current).kind with
  | .string => strings
  | .name => return (← advance).value
  | _ => unexpected context [.name, .string]

/-- A label: a name, a number, a reserved word, or strings put together. -/
def label (context : Construct) : Reader m Text := do
  let token ← current
  if token.kind.isWord then return (← advance).value
  else if token.kind = .string then strings
  else unexpected context [.name, .string]

end Reader

end Runsheet
