import Runsheet.Contract
import Runsheet.Shell.Quote

/-!
Switches gathered in blocks, and the stack of blocks that follows the nesting of a script.
-/
namespace Runsheet

/-- A switch for the tool's command line. It is bare when it has no value; a value written in the
script counts even when it is empty. -/
structure Switch where
  name : Text
  value : Text := []
  hasValue : Bool := false
  deriving DecidableEq, Repr

namespace Switch

def isBare (s : Switch) : Bool := s.value.isEmpty && !s.hasValue

def words (s : Switch) : List Text := if s.isBare then [s.name] else [s.name, s.value]

def text (s : Switch) : Text := Text.join " " (s.words.map Shell.quote)

end Switch

/-- A named list of switches; order and repetitions are kept. -/
structure Block where
  name : Text
  switches : List Switch := []
  deriving DecidableEq, Repr

namespace Block

def push (b : Block) (s : Switch) : Block := { b with switches := b.switches ++ [s] }

def absorb (b other : Block) : Block := { b with switches := b.switches ++ other.switches }

def words (b : Block) : List Text := b.switches.flatMap Switch.words

def text (b : Block) : Text := Text.join " " (b.switches.map Switch.text)

end Block

/-- The open blocks, innermost first. The last one is the main block. -/
structure Scopes where
  blocks : List Block := []
  deriving DecidableEq, Repr

namespace Scopes

def depth (s : Scopes) : Nat := s.blocks.length

/-- The names of the open blocks, the main block first. -/
def names (s : Scopes) : List Text := (s.blocks.map Block.name).reverse

def push (s : Scopes) (name : Text) : Scopes := ⟨{ name } :: s.blocks⟩

def emptyStack : Violation := ⟨.precondition, "options block stack is empty"⟩

def mainStays : Violation := ⟨.precondition, "cannot pop the main options block"⟩

def top (s : Scopes) : Except Violation Block :=
  match s.blocks with
  | b :: _ => .ok b
  | [] => .error emptyStack

def main (s : Scopes) : Except Violation Block :=
  match s.blocks.getLast? with
  | some b => .ok b
  | none => .error emptyStack

/-- Adds a switch to the innermost block, which is handed back as it was before. -/
def register (s : Scopes) (switch : Switch) : Scopes × Except Violation Block :=
  match s.top with
  | .error v => (s, .error v)
  | .ok top => (⟨top.push switch :: s.blocks.tail⟩, .ok top)

/-- Closes the innermost block, which is not the main one. -/
def pop (s : Scopes) : Scopes × Except Violation Block :=
  match s.blocks with
  | b :: c :: rest => (⟨c :: rest⟩, .ok b)
  | _ => (s, .error mainStays)

end Scopes

/-- A label with its block. -/
structure Branch where
  label : Text
  block : Block
  deriving DecidableEq, Repr

/-- Blocks kept under labels, in the order in which the labels came. -/
structure Shelf where
  branches : List Branch := []
  deriving DecidableEq, Repr

namespace Shelf

def get? (s : Shelf) (label : Text) : Option Block :=
  (s.branches.find? (·.label == label)).map Branch.block

/-- Puts a block under a label, in place of one that is there. -/
def put (s : Shelf) (label : Text) (block : Block) : Shelf :=
  ⟨s.branches.filter (·.label != label) ++ [⟨label, block⟩]⟩

def modify (s : Shelf) (label : Text) (f : Block → Block) : Shelf :=
  ⟨s.branches.map fun b => if b.label == label then { b with block := f b.block } else b⟩

/-- Adds the switches of a block to the block of every target in turn, up to the first target that
has none. The targets before it keep what they were given. -/
def absorb (s : Shelf) (block : Block) : (targets : List Text) → Shelf × Option Violation
  | [] => (s, none)
  | label :: rest =>
    match s.get? label with
    | none => (s, some (.missing "merge target"))
    | some _ => (s.modify label (·.absorb block)).absorb block rest

end Shelf

end Runsheet
