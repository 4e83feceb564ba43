import Runsheet.Text.Utf8
import Runsheet.Token

/-!
From a source to its tokens. The bytes of a source fall into gaps (blanks and comments) and
lexemes. A lexeme is recognised by its first byte, which it always takes, so every token leaves
less to read than before it.
-/
namespace Runsheet

namespace Scan

/-- Space, tab, newline, vertical tab, form feed and carriage return. -/
def isBlankByte (b : UInt8) : Bool := b == 32 || (9 ≤ b && b ≤ 13)

def isDigitByte (b : UInt8) : Bool := 48 ≤ b && b ≤ 57

def isLetterByte (b : UInt8) : Bool := (97 ≤ b && b ≤ 122) || (65 ≤ b && b ≤ 90)

/-- Bytes that may start a name: letters, `_`, `.`, `/` and `~`. -/
def isNameStart (b : UInt8) : Bool := isLetterByte b || b == 95 || b == 46 || b == 47 || b == 126

/-- Bytes that may continue a name: those that start one, digits, `-` and `+`. -/
def isNamePart (b : UInt8) : Bool := isNameStart b || isDigitByte b || b == 45 || b == 43

def run (p : UInt8 → Bool) (t : Text) : Nat := (t.takeWhile p).length

/-- The number of blank and comment bytes at the start. The flag tells whether a comment is being
read, which a newline ends. -/
def gap : (inComment : Bool) → Text → Nat
  | _, [] => 0
  | true, b :: rest => if b = 10 then gap false rest + 1 else gap true rest + 1
  | false, b :: rest =>
    if isBlankByte b then gap false rest + 1
    else if b = 35 then gap true rest + 1
    else 0

/-- What a lexeme is: its kind, how many bytes follow its first one, and its fault. -/
structure Lexeme where
  kind : TokenKind
  more : Nat
  fault : Option ScanFault := none
  deriving DecidableEq, Repr

def wordKind (t : Text) : TokenKind :=
  match Keyword.ofText? t with
  | some k => .keyword k
  | none => .name

/-- The kind and length of a number without its sign: digits, then a point with further digits.
Name bytes that follow turn the whole into a name. -/
def numberLexeme (t : Text) : TokenKind × Nat :=
  let digits := run isDigitByte t
  let (kind, used) :=
    match t.drop digits with
    | 46 :: rest =>
      let decimals := run isDigitByte rest
      if decimals = 0 then (TokenKind.integer, digits) else (TokenKind.double, digits + 1 + decimals)
    | _ => (TokenKind.integer, digits)
  let tail := run isNamePart (t.drop used)
  if tail = 0 then (kind, used) else (.name, used + tail)

/-- After a dash: a negative number, or further dashes and the name of an option. -/
def dashLexeme (rest : Text) : Lexeme :=
  match rest with
  | d :: _ =>
    if isDigitByte d then
      let (kind, n) := numberLexeme rest
      { kind, more := n }
    else
      let dashes := run (· == 45) rest
      let tail := run isNamePart (rest.drop dashes)
      if tail = 0 then { kind := .illegal, more := dashes, fault := some .missingOptionName }
      else { kind := .option, more := dashes + tail }
  | [] => { kind := .illegal, more := 0, fault := some .missingOptionName }

/-- The number of bytes up to and with the closing quote and `true`, or the number of bytes before
the newline or the end of the source that comes first and `false`. A backslash takes the byte after
it along. -/
def stringBody (quote : UInt8) : Text → Nat × Bool
  | [] => (0, false)
  | [b] => if b = quote then (1, true) else if b = 10 then (0, false) else (1, false)
  | b :: c :: rest =>
    if b = quote then (1, true)
    else if b = 10 then (0, false)
    else if b = 92 then
      let (n, closed) := stringBody quote rest
      (n + 2, closed)
    else
      let (n, closed) := stringBody quote (c :: rest)
      (n + 1, closed)

/-- After an opening quote: a string literal, or an illegal token when it is not closed in time. -/
def stringLexeme (quote : UInt8) (rest : Text) : Lexeme :=
  match stringBody quote rest with
  | (n, true) => { kind := .string, more := n }
  | (n, false) => { kind := .illegal, more := n, fault := some .unterminatedString }

def lexeme (b : UInt8) (rest : Text) : Lexeme :=
  if isNameStart b then
    let tail := rest.takeWhile isNamePart
    { kind := wordKind (b :: tail), more := tail.length }
  else if isDigitByte b then
    let (kind, n) := numberLexeme (b :: rest)
    { kind, more := n - 1 }
  else if b = 34 ∨ b = 39 then stringLexeme b rest
  else if b = 45 then dashLexeme rest
  else if b = 58 then { kind := .colon, more := 0 }
  else if b = 59 then { kind := .semicolon, more := 0 }
  else if b = 44 then { kind := .comma, more := 0 }
  else if b = 124 then { kind := .bar, more := 0 }
  else if b = 61 then { kind := .equals, more := 0 }
  else { kind := .illegal, more := (Rune.first b rest).2, fault := some .unexpectedCharacter }

def isPunctuation : TokenKind → Bool
  | .colon | .semicolon | .comma | .bar | .equals => true
  | _ => false

end Scan

/-- The place after one more rune: a newline starts the next line, any other rune the next column. -/
def Position.step (p : Position) (r : Rune) : Position :=
  if r = .char '\n' then ⟨p.line + 1, 1, p.offset + 1⟩
  else ⟨p.line, p.column + 1, p.offset + r.bytes.length⟩

/-- The place after a text. -/
def Position.after (p : Position) (t : Text) : Position := t.runes.foldl Position.step p

/-- What is left to read, and where it starts. -/
structure Cursor where
  rest : Text
  position : Position
  deriving DecidableEq, Repr

namespace Cursor

def ofSource (source : Text) : Cursor := ⟨source, .start⟩

def skip (c : Cursor) (n : Nat) : Cursor := ⟨c.rest.drop n, c.position.after (c.rest.take n)⟩

/-- The token at the cursor, the end token when only a gap is left, and the cursor after it. -/
def next (c : Cursor) : Token × Cursor :=
  let blanks := Scan.gap false c.rest
  let start := c.skip blanks
  match start.rest with
  | [] => (⟨.eof, none, start.position, decide (0 < blanks), none⟩, start)
  | b :: rest =>
    let l := Scan.lexeme b rest
    let text := if Scan.isPunctuation l.kind then none else some (b :: rest.take l.more)
    (⟨l.kind, text, start.position, decide (0 < blanks), l.fault⟩, start.skip (l.more + 1))

end Cursor

/-- The tokens of a source: those before its end, and the end token. -/
structure Tokens where
  body : List Token
  eof : Token
  deriving DecidableEq, Repr

/-- All tokens, the end token last. -/
def Tokens.toList (ts : Tokens) : List Token := ts.body ++ [ts.eof]

theorem Cursor.next_rest_lt {c c' : Cursor} {t : Token} (h : c.next = (t, c'))
    (ht : t.kind ≠ .eof) : c'.rest.length < c.rest.length := by
  simp only [Cursor.next] at h
  split at h
  · simp only [Prod.mk.injEq] at h
    exact absurd (h.1 ▸ rfl) ht
  · rename_i b rest hr
    simp only [Prod.mk.injEq] at h
    have hlen : (c.skip (Scan.gap false c.rest)).rest.length ≤ c.rest.length := by
      simp [Cursor.skip]
    rw [hr, List.length_cons] at hlen
    rw [← h.2]
    simp only [Cursor.skip] at hr ⊢
    rw [hr]
    simp only [List.drop_succ_cons, List.length_drop]
    omega

def Cursor.tokens (c : Cursor) : Tokens :=
  match _h : c.next with
  | (t, c') =>
    if _ht : t.kind = .eof then ⟨[], t⟩
    else
      let following := c'.tokens
      ⟨t :: following.body, following.eof⟩
termination_by c.rest.length
decreasing_by exact Cursor.next_rest_lt _h _ht

/-- The tokens of a source. -/
def Tokens.ofSource (source : Text) : Tokens := (Cursor.ofSource source).tokens

end Runsheet
