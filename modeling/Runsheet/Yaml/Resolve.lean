import Runsheet.Decimal

/-!
What a plain scalar stands for: most are texts, some are read as nothing, truth values, numbers or
points in time.
-/
namespace Runsheet

namespace Yaml

/-- A day, and a time of day with the offset of its zone in minutes. -/
structure Timestamp where
  year : Nat
  month : Nat
  day : Nat
  hour : Nat := 0
  minute : Nat := 0
  second : Nat := 0
  nanosecond : Nat := 0
  offset : Int := 0
  deriving DecidableEq, Repr

inductive Scalar
  | null
  | boolean (b : Bool)
  | integer (n : Int)
  | decimal (d : Decimal)
  | notFinite
  | timestamp (t : Timestamp)
  | merge
  | text (t : Text)
  deriving DecidableEq, Repr

def isAmong (words : List String) (t : Text) : Bool := words.any fun w => t == Text.ofString w

def word? (t : Text) : Option Scalar :=
  if isAmong ["", "~", "null", "Null", "NULL"] t then some .null
  else if isAmong ["true", "True", "TRUE"] t then some (.boolean true)
  else if isAmong ["false", "False", "FALSE"] t then some (.boolean false)
  else if isAmong [".nan", ".NaN", ".NAN", ".inf", ".Inf", ".INF", "+.inf", "+.Inf", "+.INF",
      "-.inf", "-.Inf", "-.INF"] t then some .notFinite
  else if isAmong ["<<"] t then some .merge
  else none

def shortNumber (t : Text) : Option (Nat × Text) :=
  let digits := (t.take 2).takeWhile Decimal.isDigit
  (Decimal.ofDigits? digits).map (·, t.drop digits.length)

def daysIn (year month : Nat) : Nat :=
  if month = 2 then
    if year % 4 = 0 ∧ (year % 100 ≠ 0 ∨ year % 400 = 0) then 29 else 28
  else if month = 4 ∨ month = 6 ∨ month = 9 ∨ month = 11 then 30
  else 31

/-- A byte that has to come next. -/
def literal (b : UInt8) (t : Text) : Option Text :=
  match t with
  | c :: rest => if b = c then some rest else none
  | [] => none

/-- A date with a year of four digits; the rest follows it. -/
def date (t : Text) : Option (Timestamp × Text) := do
  let year ← Decimal.ofDigits? ((t.take 4).takeWhile Decimal.isDigit)
  if ((t.take 4).takeWhile Decimal.isDigit).length < 4 then none
  let t ← literal 45 (t.drop 4)
  let (month, t) ← shortNumber t
  let t ← literal 45 t
  let (day, t) ← shortNumber t
  if 1 ≤ month ∧ month ≤ 12 ∧ 1 ≤ day ∧ day ≤ daysIn year month then
    return ({ year, month, day }, t)
  else none

/-- The fraction of a second after a point or a comma, to nine places. -/
def fraction (t : Text) : Nat × Text :=
  match t with
  | b :: d :: _ =>
    if (b = 46 ∨ b = 44) ∧ Decimal.isDigit d then
      let digits := (t.drop 1).takeWhile Decimal.isDigit
      (((Decimal.ofDigits? ((digits ++ Text.fill 9 48).take 9)).getD 0), t.drop (digits.length + 1))
    else (0, t)
  | _ => (0, t)

/-- Hours, minutes and seconds with a fraction; the rest follows them. -/
def clock (day : Timestamp) (t : Text) : Option (Timestamp × Text) := do
  let (hour, t) ← shortNumber t
  let t ← literal 58 t
  let (minute, t) ← shortNumber t
  let t ← literal 58 t
  let (second, t) ← shortNumber t
  let (nanosecond, t) := fraction t
  if hour < 24 ∧ minute < 60 ∧ second < 60 then
    return ({ day with hour, minute, second, nanosecond }, t)
  else none

def twoDigits (bound : Nat) (t : Text) : Option (Nat × Text) := do
  let n ← Decimal.ofDigits? (t.take 2)
  if (t.take 2).length = 2 ∧ n < bound then return (n, t.drop 2) else none

/-- A time zone: `Z`, or hours and minutes with a sign. -/
def zone (time : Timestamp) (t : Text) : Option (Timestamp × Text) :=
  match t with
  | 90 :: rest => some (time, rest)
  | b :: rest =>
    if b = 43 ∨ b = 45 then do
      let (hours, t) ← twoDigits 25 rest
      let t ← literal 58 t
      let (minutes, t) ← twoDigits 61 t
      let offset : Int := (hours * 60 + minutes : Nat)
      return ({ time with offset := if b = 45 then -offset else offset }, t)
    else none
  | [] => none

def complete (read : Option (Timestamp × Text)) : Option Timestamp :=
  match read with
  | some (time, []) => some time
  | _ => none

/-- A date, or a date with a time of day: after `T` with a time zone, after spaces without one. -/
def timestamp? (t : Text) : Option Timestamp :=
  match date t with
  | none => none
  | some (day, []) => some day
  | some (day, b :: rest) =>
    if b = 84 ∨ b = 116 then
      complete ((clock day rest).bind fun (time, rest) => zone time rest)
    else if b = 32 then complete (clock day (rest.dropWhile (· == 32)))
    else none

/-- A number in at least so many digits. -/
def zeroPadded (width n : Nat) : Text := (Text.decimal n).padLeft width 48

/-- The text of a point in time, with the offset of its zone. None stands for an offset of a day or
more. -/
def Timestamp.text? (t : Timestamp) : Option Text :=
  let minutes := t.offset.natAbs
  let place : Text :=
    if minutes = 0 then "Z"
    else (if t.offset < 0 then "-" else "+" : Text) ++ zeroPadded 2 (minutes / 60) ++ ":" ++
      zeroPadded 2 (minutes % 60)
  let fraction : Text :=
    if t.nanosecond = 0 then []
    else "." ++ Text.dropEnd 48 (zeroPadded 9 t.nanosecond)
  if minutes < 24 * 60 then
    some (zeroPadded 4 t.year ++ "-" ++ zeroPadded 2 t.month ++ "-" ++ zeroPadded 2 t.day ++ "T" ++
      zeroPadded 2 t.hour ++ ":" ++ zeroPadded 2 t.minute ++ ":" ++ zeroPadded 2 t.second ++
      fraction ++ place)
  else none

/-- Whether the decimal is spelt without a sign of its own in odd places: an optional sign, digits
with a point, an exponent. -/
def decimal? (t : Text) : Option Scalar :=
  match Decimal.parse? t with
  | some d => if d.overflows then none else some (.decimal d)
  | none => none

/-- A whole number of up to 64 bits, signed or not. -/
def integer? (t : Text) : Option Int :=
  let (negative, digits) := Decimal.sign t
  let signed := digits.length < t.length
  match Decimal.natural? digits with
  | none => none
  | some n =>
    if negative then if n ≤ 0x8000000000000000 then some (-(n : Int)) else none
    else if n < 0x8000000000000000 ∨ (!signed ∧ n < 0x10000000000000000) then some n
    else none

/-- Numbers and points in time, for scalars that start with a digit or a sign. Underscores between
digits do not count. -/
def number? (t : Text) : Option Scalar :=
  match timestamp? t with
  | some time => some (.timestamp time)
  | none =>
    let plain := t.filter (· != 95)
    match integer? plain with
    | some n => some (.integer n)
    | none => decimal? plain

def resolve (t : Text) : Scalar :=
  match word? t with
  | some s => s
  | none =>
    match t with
    | [] => .null
    | b :: _ =>
      if b = 46 then (decimal? t).getD (.text t)
      else if b = 43 ∨ b = 45 ∨ Decimal.isDigit b then (number? t).getD (.text t)
      else .text t

end Yaml

end Runsheet
