import Runsheet.Text

/-!
Records of fields with commas between them. A field in quotes may hold commas, newlines and, written
twice, quotes. Only the first record of a text is of interest here.
-/
namespace Runsheet

namespace Csv

/-- Why a text has no readable record. Lines and columns count from one, columns in bytes; the first
number is the line on which the record starts. -/
inductive Fault
  | noRecord
  | bareQuote (first line column : Nat)
  | looseQuote (first line column : Nat)
  deriving DecidableEq, Repr

namespace Fault

def located (first line column : Nat) (what : String) : Text :=
  Text.onlyIf (first != line) ("record on line " ++ Text.decimal first ++ "; ") ++
    "parse error on line " ++ Text.decimal line ++ ", column " ++ Text.decimal column ++ ": " ++ what

def message : Fault → Text
  | noRecord => "EOF"
  | bareQuote first line column => located first line column "bare \" in non-quoted-field"
  | looseQuote first line column =>
    located first line column "extraneous or missing \" in quoted-field"

end Fault

/-- Where in a field the reading is. -/
inductive Spot
  | start
  | plain
  | quoted
  deriving DecidableEq, Repr

def withoutReturns : Text → Text
  | [] => []
  | [13] => []
  | 13 :: 10 :: rest => 10 :: withoutReturns rest
  | b :: rest => b :: withoutReturns rest

/-- The fields up to the end of the record, the first of which has begun. -/
def fieldsFrom (first : Nat) :
    (spot : Spot) → (line column : Nat) → (field : Text) → Text → Except Fault (List Text)
  | .quoted, line, column, _, [] => .error (.looseQuote first line column)
  | _, _, _, field, [] => .ok [field]
  | .quoted, line, column, field, b :: rest =>
    if b = 34 then
      match rest with
      | 34 :: rest => fieldsFrom first .quoted line (column + 2) (field ++ [34]) rest
      | 44 :: rest => (fieldsFrom first .start line (column + 2) [] rest).map (field :: ·)
      | [] | 10 :: _ => .ok [field]
      | _ => .error (.looseQuote first line column)
    else if b = 10 then
      if rest.isEmpty then .error (.looseQuote first line (column + 1))
      else fieldsFrom first .quoted (line + 1) 1 (field ++ [b]) rest
    else fieldsFrom first .quoted line (column + 1) (field ++ [b]) rest
  | spot, line, column, field, b :: rest =>
    if b = 44 then (fieldsFrom first .start line (column + 1) [] rest).map (field :: ·)
    else if b = 10 then .ok [field]
    else if b = 34 then
      if spot = .start then fieldsFrom first .quoted line (column + 1) [] rest
      else .error (.bareQuote first line column)
    else fieldsFrom first .plain line (column + 1) (field ++ [b]) rest

/-- The first record of a text. Empty lines before it are passed over. -/
def firstRecord (t : Text) : Except Fault (List Text) :=
  let plain := withoutReturns t
  let skipped := (plain.takeWhile (· == 10)).length
  match plain.drop skipped with
  | [] => .error .noRecord
  | record => fieldsFrom (skipped + 1) .start (skipped + 1) 1 [] record

end Csv

end Runsheet
