import Runsheet.Shell.Lexeme

/-!
Shell scripts: simple commands with `;`, `&&`, `||` and newlines between them. A script is read and
run stretch by stretch, so a mistake stops only what comes after it.
-/
namespace Runsheet

namespace Shell

inductive Redirection
  | duplicate (stream : Nat) (target : List Piece)
  | file (stream : Nat) (append : Bool) (target : List Piece)
  | input (source : List Piece)
  deriving DecidableEq, Repr

/-- A simple command: its words, its redirections, and the line of its first word. -/
structure Simple where
  words : List (List Piece) := []
  redirections : List Redirection := []
  line : Nat := 0
  deriving DecidableEq, Repr

def Simple.isEmpty (c : Simple) : Bool := c.words.isEmpty && c.redirections.isEmpty

/-- When a command runs, by the success of the one before it. -/
inductive Connector
  | always
  | onSuccess
  | onFailure
  deriving DecidableEq, Repr

structure Item where
  connector : Connector
  command : Simple
  deriving DecidableEq, Repr

structure Mistake where
  line : Nat
  what : Text
  deriving DecidableEq, Repr

def Mistake.unexpected (line : Nat) : Option Lexeme → Mistake
  | none => ⟨line, "end of file unexpected"⟩
  | some (.word _ line) => ⟨line, "word unexpected"⟩
  | some (.operator [10] line) => ⟨line, "newline unexpected"⟩
  | some (.operator symbol line) => ⟨line, "\"" ++ symbol ++ "\" unexpected"⟩
  | some (.redirection _ _) => ⟨line, "redirection unexpected"⟩

def Redirection.ofSymbol (stream : Option Nat) (symbol : Text) (target : List Piece) : Redirection :=
  if symbol = ">&" then .duplicate (stream.getD 1) target
  else if symbol = ">>" then .file (stream.getD 1) true target
  else if symbol.head? = some 60 then .input target
  else .file (stream.getD 1) false target

/-- What is run before the next commands are looked at, or a mistake that ends the script. -/
abbrev Stretch := Except Mistake (List Item)

namespace Script

/-- Adds a command to a stretch unless there is nothing in it. -/
def close (begun : List Item) (connector : Connector) (draft : Simple) : List Item :=
  if draft.isEmpty then begun else begun ++ [⟨connector, draft⟩]

/-- The stretches of some lexemes, the first of which has begun; `last` is the line of the end. -/
def stretchesFrom (last : Nat) (begun : List Item) (connector : Connector) (draft : Simple) :
    List Lexeme → List Stretch
  | [] =>
    if draft.isEmpty && connector != .always then [.error (.unexpected last none)]
    else [.ok (close begun connector draft)]
  | .word pieces line :: rest =>
    stretchesFrom last begun connector
      { draft with
        words := draft.words ++ [pieces]
        line := if draft.words.isEmpty then line else draft.line } rest
  | .redirection stream symbol :: rest =>
    match rest with
    | .word pieces _ :: rest =>
      stretchesFrom last begun connector
        { draft with
          redirections := draft.redirections ++ [.ofSymbol stream symbol pieces] } rest
    | found => [.error (.unexpected last found.head?)]
  | .operator symbol line :: rest =>
    if symbol = "\n" then
      if draft.isEmpty && connector != .always then stretchesFrom last begun connector draft rest
      else .ok (close begun connector draft) :: stretchesFrom last [] .always {} rest
    else if draft.isEmpty then [.error (.unexpected last (some (.operator symbol line)))]
    else if symbol = ";" || symbol = "&" then
      stretchesFrom last (close begun connector draft) .always {} rest
    else if symbol = "&&" then stretchesFrom last (close begun connector draft) .onSuccess {} rest
    else if symbol = "||" then stretchesFrom last (close begun connector draft) .onFailure {} rest
    else [.error (.unexpected last (some (.operator symbol line)))]

/-- The stretches of a script. A script that ends between quotes ends with a mistake. -/
def stretches (t : Text) : List Stretch :=
  let scan := Scan.ofText t
  let found := stretchesFrom scan.line [] .always {} scan.lexemes.reverse
  if scan.isOpen then found.dropLast ++ [.error ⟨scan.line, "Unterminated quoted string"⟩] else found

end Script

end Shell

end Runsheet
