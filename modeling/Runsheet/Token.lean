import Runsheet.Text

/-!
The tokens of the script language. A token keeps the bytes it was read from and its place in the
source; its value is what the bytes stand for.
-/
namespace Runsheet

inductive Keyword
  | tool | input | choice | default | case | select | every
  deriving DecidableEq, Repr

namespace Keyword

/-- Every reserved word. -/
def all : List Keyword := [tool, input, choice, default, case, select, every]

/-- How a reserved word is written in a script. -/
def spelling : Keyword → String
  | tool => "tool"
  | input => "input"
  | choice => "choice"
  | default => "default"
  | case => "case"
  | select => "select"
  | every => "every"

def ofText? (t : Text) : Option Keyword := all.find? fun k => t == Text.ofString k.spelling

end Keyword

/-- The kinds of tokens. No scanner produces `unknown`: it stands for a kind from elsewhere. -/
inductive TokenKind
  | eof
  | illegal
  | keyword (k : Keyword)
  | colon
  | semicolon
  | comma
  | bar
  | equals
  | name
  | option
  | integer
  | double
  | string
  | unknown
  deriving DecidableEq, Repr

namespace TokenKind

def tag : TokenKind → String
  | eof => "EOF"
  | illegal => "ILLEGAL"
  | keyword .tool => "TOOL"
  | keyword .input => "INPUT"
  | keyword .choice => "CHOICE"
  | keyword .default => "DEFAULT"
  | keyword .case => "CASE"
  | keyword .select => "SELECT"
  | keyword .every => "EVERY"
  | colon => "COLON"
  | semicolon => "SEMICOLON"
  | comma => "COMMA"
  | bar => "BAR"
  | equals => "EQUALS"
  | name => "NAME"
  | option => "OPTION"
  | integer => "INTEGER"
  | double => "DOUBLE"
  | string => "STRING"
  | unknown => "UNKNOWN"

def describe : TokenKind → String
  | eof => "end of script"
  | illegal => "an illegal character"
  | keyword k => "'" ++ k.spelling ++ "'"
  | colon => "':'"
  | semicolon => "';'"
  | comma => "','"
  | bar => "'|'"
  | equals => "'='"
  | name => "a name"
  | option => "an option"
  | integer => "a number"
  | double => "a number"
  | string => "a string"
  | unknown => "'unknown'"

def isKeyword : TokenKind → Bool
  | keyword _ => true
  | _ => false

/-- Whether a token of the kind is one unquoted word: a name, a number or a reserved word. -/
def isWord : TokenKind → Bool
  | name | integer | double | keyword _ => true
  | _ => false

end TokenKind

/-- A place in a source: lines and columns count from one, the offset counts bytes from zero. -/
structure Position where
  line : Nat
  column : Nat
  offset : Nat
  deriving DecidableEq, Repr

def Position.start : Position := ⟨1, 1, 0⟩

inductive ScanFault
  | unexpectedCharacter
  | missingOptionName
  | unterminatedString
  deriving DecidableEq, Repr

def ScanFault.message : ScanFault → String
  | unexpectedCharacter => "unexpected character"
  | missingOptionName => "option name expected after '-'"
  | unterminatedString => "unterminated string"

/-- A token: its kind, its bytes unless the kind tells them, its place, whether blanks or a comment
stand before it, and for an illegal token the fault. -/
structure Token where
  kind : TokenKind
  text : Option Text
  position : Position
  spaced : Bool
  fault : Option ScanFault
  deriving DecidableEq, Repr

namespace Token

/-- The bytes the token was read from; none for punctuation and the end. -/
def raw (t : Token) : Text := t.text.getD []

/-- The contents of a string literal: a backslash is dropped and keeps the byte after it, except
that `n` and `t` stand for a newline and a tab. A backslash at the very end stands for itself. -/
def unescape : Text → Text
  | [] => []
  | [b] => [b]
  | b :: c :: rest =>
    if b = 92 then
      (if c = 110 then 10 else if c = 116 then 9 else c) :: unescape rest
    else b :: unescape (c :: rest)

/-- What the token stands for: the contents of a string, the bytes themselves otherwise. -/
def value (t : Token) : Text :=
  if t.kind = .string ∧ 2 ≤ t.raw.length then unescape ((t.raw.drop 1).dropLast) else t.raw

end Token

end Runsheet
