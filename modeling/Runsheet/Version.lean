import Runsheet.Decimal

/-!
Versions with up to three numbers, and after three of them an early-release part and a build part.
Numbers may be of any size, so they are kept as digits.
-/
namespace Runsheet

/-- A version. Numbers that are left out are zero. -/
structure Version where
  major : Text
  minor : Text := "0"
  patch : Text := "0"
  early : List Text := []
  deriving DecidableEq, Repr

namespace Version

def isPartByte (b : UInt8) : Bool :=
  Decimal.isDigit b || (65 ≤ b && b ≤ 90) || (97 ≤ b && b ≤ 122) || b == 45

/-- Whether digits have no zero in front; a single zero is one. -/
def isCanonical (digits : Text) : Bool := digits.length ≤ 1 || digits.head? != some 48

def number? (t : Text) : Option (Text × Text) :=
  let digits := t.takeWhile Decimal.isDigit
  if digits.isEmpty || !isCanonical digits then none else some (digits, t.drop digits.length)

def isPart (part : Text) : Bool := !part.isEmpty && part.all isPartByte

/-- Whether an early-release part is well formed: a number has no zero in front. -/
def isEarlyPart (part : Text) : Bool :=
  isPart part && (!part.all Decimal.isDigit || isCanonical part)

/-- The early-release parts, then the build parts, up to the end. -/
def tail? (v : Version) (t : Text) : Option Version :=
  let early := t.takeWhile (· != 43)
  let build := t.drop early.length
  let earlyParts := match early with
    | 45 :: rest => some (Text.splitAt 46 rest)
    | [] => some []
    | _ => none
  let buildParts := match build with
    | 43 :: rest => Text.splitAt 46 rest
    | _ => []
  match earlyParts with
  | some parts =>
    if parts.all isEarlyPart && buildParts.all isPart then some { v with early := parts } else none
  | none => none

/-- Reads a version without its `v`. -/
def parseBare? (t : Text) : Option Version := do
  let (major, t) ← number? t
  if t.isEmpty then return { major }
  let t ← if t.head? = some 46 then some (t.drop 1) else none
  let (minor, t) ← number? t
  if t.isEmpty then return { major, minor }
  let t ← if t.head? = some 46 then some (t.drop 1) else none
  let (patch, t) ← number? t
  tail? { major, minor, patch } t

/-- Reads a version. One `v` in front does not count. -/
def parse? (t : Text) : Option Version :=
  match t with
  | 118 :: rest => parseBare? rest
  | _ => parseBare? t

def compareDigits (s t : Text) : Ordering :=
  if s.length < t.length then .lt
  else if s.length > t.length then .gt
  else if s.precedes t then .lt
  else if t.precedes s then .gt
  else .eq

/-- The order of two early-release parts: numbers before all others. -/
def compareParts (s t : Text) : Ordering :=
  match s.all Decimal.isDigit, t.all Decimal.isDigit with
  | true, true => compareDigits s t
  | true, false => .lt
  | false, true => .gt
  | false, false => if s.precedes t then .lt else if t.precedes s then .gt else .eq

def compareLists : List Text → List Text → Ordering
  | [], [] => .eq
  | [], _ :: _ => .lt
  | _ :: _, [] => .gt
  | s :: ss, t :: ts => (compareParts s t).then (compareLists ss ts)

/-- The order of early releases: a version without such a part comes after all that have one. -/
def compareEarly (s t : List Text) : Ordering :=
  match s, t with
  | [], [] => .eq
  | [], _ :: _ => .gt
  | _ :: _, [] => .lt
  | _, _ => compareLists s t

/-- The order of versions. Build parts do not count. -/
def compare (v w : Version) : Ordering :=
  (compareDigits v.major w.major).then <| (compareDigits v.minor w.minor).then <|
    (compareDigits v.patch w.patch).then (compareEarly v.early w.early)

end Version

end Runsheet
