import Runsheet.Program.Escape
import Runsheet.Text.Quoted

/-!
`printf`: a format with conversions that take the arguments one after the other. The format is used
again until no argument is left. The tool on its own and the one built into the shell word their
complaints differently.
-/
namespace Runsheet

namespace Program

/-- A word in a complaint: between single quotes, with backslash sequences for what is not printable
ASCII. -/
def shownWord (t : Text) : Text :=
  "'" ++ t.flatMap shownByte ++ "'"
where
  /-- One byte of it. -/
  shownByte (b : UInt8) : Text :=
    if b = 39 || b = 92 then [92, b]
    else if 32 ≤ b && b < 127 then [b]
    else
      match controlLetter? b.toNat with
      | some letter => [92, letter]
      | none => "\\" ++ Text.padLeft 3 48 (Text.ofString (String.ofList (Nat.toDigits 8 b.toNat)))

namespace Printf

/-- Which `printf` it is, and what its complaints start with. -/
structure Variant where
  builtin : Bool
  lead : Text
  deriving DecidableEq, Repr

/-- A conversion of a format: how to fill up, how many digits or bytes, and the letter that tells what
it converts. -/
structure Conversion where
  left : Bool := false
  plus : Bool := false
  space : Bool := false
  alternate : Bool := false
  zero : Bool := false
  width : Nat := 0
  precision : Option Nat := none
  letter : Option UInt8
  spelling : Text
  deriving DecidableEq, Repr

namespace Conversion

def leadingNumber (t : Text) : Nat := (Decimal.ofDigits? (t.takeWhile Decimal.isDigit)).getD 0

def isFlag (b : UInt8) : Bool := (Text.ofString "#-+ 0").contains b

/-- The conversion that starts after a percent sign. On its own, `printf` passes over the letters that
tell the size of a number. -/
def parse (v : Variant) (t : Text) : Conversion :=
  let flags := t.takeWhile isFlag
  let afterFlags := t.drop flags.length
  let width := afterFlags.takeWhile Decimal.isDigit
  let afterWidth := afterFlags.drop width.length
  let dotted := afterWidth.head? == some 46
  let digits := if dotted then afterWidth.tail.takeWhile Decimal.isDigit else []
  let afterDigits := if dotted then afterWidth.tail.drop digits.length else afterWidth
  let sizes := if v.builtin then [] else afterDigits.takeWhile (Text.ofString "lLhjtz").contains
  let used :=
    flags.length + width.length + (if dotted then 1 + digits.length else 0) + sizes.length
  { left := flags.contains 45
    plus := flags.contains 43
    space := flags.contains 32
    alternate := flags.contains 35
    zero := flags.contains 48
    width := leadingNumber width
    precision := if dotted then some (leadingNumber digits) else none
    letter := t[used]?
    spelling := t.take (used + 1) }

/-- Whether a conversion may be asked for in this way. On its own, `printf` refuses flags that mean
nothing to a conversion. -/
def isSensible (v : Variant) (c : Conversion) : Bool :=
  let isOneOf (letters : String) : Bool :=
    c.letter.any fun b => (Text.ofString letters).contains b
  v.builtin ||
    !(c.alternate && isOneOf "cdisu") && !(c.zero && isOneOf "cs") &&
      !(c.precision.isSome && isOneOf "c") && !(isOneOf "b" && c.spelling.length != 1)

def fill (c : Conversion) (t : Text) : Text :=
  let blanks := Text.fill (c.width - t.length) 32
  if c.left then t ++ blanks else blanks ++ t

/-- A number with a lead (a sign or a base) and as many digits as asked for. -/
def number (c : Conversion) (lead digits : Text) : Text :=
  match c.precision with
  | some p => c.fill (lead ++ Text.padLeft p 48 digits)
  | none =>
    if c.zero && !c.left then lead ++ Text.padLeft (c.width - lead.length) 48 digits
    else c.fill (lead ++ digits)

/-- The digits of a number; none for zero when no digit is asked for. -/
def digits (c : Conversion) (base n : Nat) : Text :=
  if n = 0 && c.precision == some 0 then [] else Text.ofString (String.ofList (Nat.toDigits base n))

def signed (c : Conversion) (n : Int) : Text :=
  let sign : Text := if n < 0 then "-" else if c.plus then "+" else if c.space then " " else []
  c.number sign (c.digits 10 n.natAbs)

/-- A number without a sign in a base; one below zero counts from the top of 64 bits. -/
def unsigned (c : Conversion) (base : Nat) (lead : Text) (n : Int) : Text :=
  let value := (n % 0x10000000000000000).toNat
  c.number (Text.onlyIf (c.alternate && value != 0) lead) (c.digits base value)

end Conversion

/-- How well a text reads as a number. -/
inductive Reading
  | complete
  | noNumber
  | trailing
  | outOfRange
  deriving DecidableEq, Repr

/-- The digits at the front of a text in the base that its lead tells, and what comes after them. -/
def magnitude (t : Text) : Option Nat × Text :=
  let taken (base : Nat) (isOne : UInt8 → Bool) (t : Text) : Option Nat × Text :=
    (Decimal.ofBase? base (t.takeWhile isOne), t.dropWhile isOne)
  match t with
  | 48 :: x :: d :: rest =>
    if (x = 120 || x = 88) && Escape.isHex d then taken 16 Escape.isHex (d :: rest)
    else taken 8 Escape.isOctal t
  | 48 :: _ => taken 8 Escape.isOctal t
  | _ => taken 10 Decimal.isDigit t

/-- The number that an argument stands for. A quote makes it the code of the byte after it. -/
def numberOf (v : Variant) (isSigned : Bool) (t : Text) : Int × Reading :=
  match t with
  | 34 :: c :: _ | 39 :: c :: _ => (c.toNat, .complete)
  | [34] | [39] => (0, if v.builtin then .complete else .noNumber)
  | _ =>
    let (negative, unsignedText) := Decimal.sign (t.dropWhile fun b => b == 32 || (9 ≤ b && b ≤ 13))
    match magnitude unsignedText with
    | (none, _) => (0, if t.isEmpty then .complete else .noNumber)
    | (some n, rest) =>
      let value : Int := if negative then -n else n
      let reading : Reading := if rest.isEmpty then .complete else .trailing
      let excess : Reading := if rest.isEmpty then .outOfRange else .trailing
      if isSigned then
        if value > 0x7fffffffffffffff then (0x7fffffffffffffff, excess)
        else if value < -0x8000000000000000 then (-0x8000000000000000, excess)
        else (value, reading)
      else if n > 0xffffffffffffffff then (0xffffffffffffffff, excess)
      else (value, reading)

/-- What is told about an argument that is not wholly a number. -/
def complaint (v : Variant) (t : Text) : Reading → Text
  | .complete => []
  | r =>
    let shown : Text := if v.builtin then t else shownWord t
    let what := match r with
      | .noNumber => if v.builtin then "expected numeric value" else "expected a numeric value"
      | .trailing => if v.builtin then "not completely converted" else "value not completely converted"
      | _ => "Numerical result out of range"
    v.lead ++ shown ++ ": " ++ what ++ "\n"

/-- How far one use of the format has come: what was written, the arguments left, and the exit code if
something went wrong. -/
structure Pass where
  out : Text := []
  err : Text := []
  arguments : List Text
  failed : Bool := false
  stopped : Bool := false
  abort : Option Nat := none
  deriving DecidableEq, Repr

namespace Pass

def write (p : Pass) (t : Text) : Pass := { p with out := p.out ++ t }

/-- Gives up with a complaint. -/
def giveUp (p : Pass) (v : Variant) (what : Text) : Pass :=
  { p with err := p.err ++ v.lead ++ what ++ "\n", abort := some (if v.builtin then 2 else 1) }

/-- Takes an argument, an empty one when none is left. -/
def take (p : Pass) : Text × Pass := (p.arguments.headD [], { p with arguments := p.arguments.tail })

def takeNumber (v : Variant) (isSigned : Bool) (p : Pass) : Int × Pass :=
  let (t, p) := p.take
  let (n, reading) := numberOf v isSigned t
  (n, { p with err := p.err ++ complaint v t reading, failed := p.failed || reading != .complete })

def convert (v : Variant) (c : Conversion) (p : Pass) : Pass :=
  let signed := fun p : Pass => let (n, p) := p.takeNumber v true; p.write (c.signed n)
  let unsigned := fun (base : Nat) (lead : Text) (upper : Bool) (p : Pass) =>
    let (n, p) := p.takeNumber v false
    let shown := c.unsigned base lead n
    p.write (if upper then shown.map fun b => if 97 ≤ b && b ≤ 122 then b - 32 else b else shown)
  let invalid : Text :=
    "%" ++ c.spelling ++ if v.builtin then ": invalid directive" else ": invalid conversion specification"
  match (if c.isSensible v then c.letter else some 0).map fun b => Char.ofNat b.toNat with
  | some 's' =>
    let (t, p) := p.take
    p.write (c.fill (match c.precision with
      | some n => t.take n
      | none => t))
  | some 'b' =>
    let (t, p) := p.take
    let (shown, stopped) :=
      unescape (if v.builtin then Escape.inArgument
        else Escape.withHex (Escape.withQuote Escape.inArgument)) t
    { p.write (c.fill (match c.precision with
        | some n => shown.take n
        | none => shown)) with stopped }
  | some 'c' => let (t, p) := p.take; p.write (c.fill [t.headD 0])
  | some 'd' | some 'i' => signed p
  | some 'u' => unsigned 10 [] false p
  | some 'o' => unsigned 8 "0" false p
  | some 'x' => unsigned 16 "0x" false p
  | some 'X' => unsigned 16 "0x" true p
  | some _ => p.giveUp v invalid
  | none => p.giveUp v (if v.builtin then "missing format character" else invalid)

end Pass

/-- Uses the format once; the given number of bytes is passed over. -/
def once (v : Variant) : (owed : Nat) → Text → Pass → Pass
  | _, [], p => p
  | n + 1, _ :: rest, p => once v n rest p
  | 0, b :: rest, p =>
    if p.stopped || p.abort.isSome then p
    else if b = 37 then
      match rest with
      | 37 :: _ => once v 1 rest (p.write [37])
      | _ =>
        let c := Conversion.parse v rest
        once v c.spelling.length rest (p.convert v c)
    else if b = 92 then
      match (if v.builtin then Escape.inFormat
          else Escape.withHex (Escape.withQuote Escape.inFormat)) rest with
      | .stop => { p with stopped := true }
      | .bytes out used => once v used rest (p.write out)
      | .ordinary =>
        if !v.builtin && rest.head? == some 120 then
          p.giveUp v "missing hexadecimal number in escape"
        else once v 0 rest (p.write [92])
    else once v 0 rest (p.write [b])

/-- Uses the format until no argument is left or a use takes none. -/
def repeatedly (v : Variant) (format : Text) : (fuel : Nat) → Pass → Pass
  | 0, p => p
  | n + 1, p =>
    let q := once v 0 format p
    if q.stopped || q.abort.isSome || q.arguments.isEmpty || q.arguments.length == p.arguments.length
    then q
    else repeatedly v format n q

/-- What is told when arguments are left that the format does not take. -/
def excess (v : Variant) (p : Pass) : Text :=
  match p.arguments with
  | t :: _ =>
    Text.onlyIf (!v.builtin && !p.stopped && p.abort.isNone)
      (v.lead ++ "warning: ignoring excess arguments, starting with " ++ shownWord t ++ "\n")
  | [] => []

/-- What is written, what is told and the exit code for a format and its arguments. -/
def run (v : Variant) (format : Text) (arguments : List Text) : Text × Text × Nat :=
  let p := repeatedly v format (arguments.length + 1) { arguments }
  (p.out, p.err ++ excess v p, p.abort.getD (if p.failed then 1 else 0))

end Printf

end Program

end Runsheet
