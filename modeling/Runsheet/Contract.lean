import Runsheet.Text

/-!
Violations of the contracts between the parts of the engine. A violation tells of a broken calling
sequence, never of a problem in a script.
-/
namespace Runsheet

/-- Which side of a contract was broken. -/
inductive ContractKind
  | precondition
  | postcondition
  | invariant
  deriving DecidableEq, Repr

def ContractKind.tag : ContractKind → String
  | precondition => "PRECONDITION"
  | postcondition => "POSTCONDITION"
  | invariant => "INVARIANT"

structure Violation where
  kind : ContractKind
  text : Text
  deriving DecidableEq, Repr

namespace Violation

def message (v : Violation) : Text := v.kind.tag ++ " VIOLATION: " ++ v.text

/-- Something required was not there. -/
def missing (name : Text) : Violation := ⟨.precondition, name ++ " must not be nil"⟩

/-- A number lies outside its bounds. -/
def outOfRange (name : Text) (value low high : Int) : Violation :=
  ⟨.precondition, name ++ " must be in range [" ++ Text.decimalInt low ++ ", " ++
    Text.decimalInt high ++ "], got " ++ Text.decimalInt value⟩

def mustNotFail (name failure : Text) : Violation :=
  ⟨.postcondition, name ++ " must not fail: " ++ failure⟩

end Violation

def demand (kind : ContractKind) (condition : Bool) (text : Text) : Except Violation Unit :=
  if condition then .ok () else .error ⟨kind, text⟩

/-- Fails unless a number lies within bounds, which belong to the range. -/
def demandRange (name : Text) (value low high : Int) : Except Violation Unit :=
  if value < low ∨ value > high then .error (.outOfRange name value low high) else .ok ()

end Runsheet
