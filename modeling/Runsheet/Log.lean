import Runsheet.Text.Quoted

/-!
Log records and the line that shows one: the message and then each field, all as `key=value`.
-/
namespace Runsheet

inductive LogValue
  | text (t : Text)
  | number (n : Int)
  | list (ts : List Text)
  | failure (message : Option Text)
  deriving DecidableEq, Repr

/-- One record: a message and its fields in order. -/
structure LogRecord where
  message : Text
  fields : List (String × LogValue) := []
  deriving DecidableEq, Repr

namespace LogRecord

/-- Whether a rune of a value calls for quotes: a control character, a space, `"`, `=`, and outside
ASCII whatever is not printable or is the replacement character. -/
def needsQuotes : Rune → Bool
  | .invalid _ => true
  | .char c =>
    if c.toNat < 0x80 then c.toNat ≤ 0x20 || c = '"' || c = '='
    else c.toNat = 0xfffd || !isPrintable c.toNat

/-- A value as it stands in a line: in quotes when it is empty or needs them. -/
def shown (t : Text) : Text :=
  if t.isEmpty || t.runes.any needsQuotes then t.quoted else t

def valueText : LogValue → Text
  | .text t => shown t
  | .number n => Text.decimalInt n
  | .list ts => shown ("[" ++ Text.join " " ts ++ "]")
  | .failure none => "<nil>"
  | .failure (some message) => shown message

def fieldText (key : Text) (value : LogValue) : Text := " " ++ key ++ "=" ++ valueText value

/-- The line of a record, without a newline. -/
def line (r : LogRecord) : Text :=
  "msg=" ++ shown r.message ++ r.fields.flatMap fun (key, value) => fieldText key value

end LogRecord

end Runsheet
