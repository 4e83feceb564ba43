import Runsheet.Terminal.Shape

/-!
The width of a line on a terminal. Control sequences take no cells, and characters that are shown as
one, such as joined pictures or the two halves of a flag, take the cells of the first.
-/
namespace Runsheet

namespace Terminal

/-- Where a terminal is in a control sequence. -/
inductive Mode
  | ground
  | escape
  | intermediate
  | control
  | string (bellEnds : Bool)
  deriving DecidableEq, Repr

/-- What the character before can take up. -/
inductive Cluster
  | closed
  | flag
  | picture (cells : Nat) (joining : Bool)
  | syllable (last : Shape)
  deriving DecidableEq, Repr

/-- The cells of a line so far, those of an open picture apart. -/
structure Gauge where
  mode : Mode := .ground
  cells : Nat := 0
  cluster : Cluster := .closed
  deriving DecidableEq, Repr

namespace Gauge

/-- The cells of an open picture. -/
def pending : Cluster → Nat
  | .picture n _ => n
  | _ => 0

def total (g : Gauge) : Nat := g.cells + pending g.cluster

def start (g : Gauge) (cells : Nat) (cluster : Cluster) : Gauge :=
  { mode := .ground, cells := g.total + cells, cluster }

/-- Whether a letter goes into the cells of a syllable that ends with another. -/
def joinsSyllable (last next : Shape) : Bool :=
  match last, next with
  | .leading, .leading | .leading, .vowel | .leading, .openSyllable | .leading, .closedSyllable
  | .vowel, .vowel | .vowel, .trailing | .openSyllable, .vowel | .openSyllable, .trailing
  | .closedSyllable, .trailing | .trailing, .trailing => true
  | _, _ => false

def letterCells : Shape → Nat
  | .leading | .openSyllable | .closedSyllable => 2
  | _ => 1

def letter (g : Gauge) (s : Shape) : Gauge :=
  match g.cluster with
  | .syllable last =>
    if joinsSyllable last s then { g with mode := .ground, cluster := .syllable s }
    else g.start (letterCells s) (if s = .leading then .syllable s else .closed)
  | _ => g.start (letterCells s) (if s = .leading then .syllable s else .closed)

def character (g : Gauge) (c : Nat) : Gauge :=
  match shapeOf c, g.cluster with
  | .hidden, .picture cells _ =>
    let cells := if c = 0xfe0e then 1 else if c = 0xfe0f then 2 else cells
    { g with mode := .ground, cluster := .picture cells (c = 0x200d) }
  | .hidden, .syllable _ => { g with mode := .ground, cluster := .closed }
  | .hidden, _ => { g with mode := .ground }
  | .flag, .flag => { g with mode := .ground, cluster := .closed }
  | .flag, _ => g.start 2 .flag
  | .picture _, .picture cells true => { g with mode := .ground, cluster := .picture cells false }
  | .picture n, _ => g.start 0 (.picture n false)
  | .cells n, _ => g.start n .closed
  | s, _ => g.letter s

/-- The mode after a byte that is no character, outside of strings. -/
def strayMode (b : UInt8) : Mode :=
  if b = 0x9b then .control
  else if b = 0x9d then .string true
  else if b = 0x90 ∨ b = 0x98 ∨ b = 0x9e ∨ b = 0x9f then .string false
  else .ground

def afterEscape (b : Nat) : Mode :=
  if b < 0x20 ∨ b = 0x7f then .escape
  else if b < 0x30 then .intermediate
  else if b = 0x5b then .control
  else if b = 0x5d then .string true
  else if b = 0x50 ∨ b = 0x58 ∨ b = 0x5e ∨ b = 0x5f then .string false
  else .ground

def ascii (g : Gauge) (b : Nat) : Gauge :=
  if b = 0x1b then { g.start 0 .closed with mode := .escape }
  else if b = 0x18 ∨ b = 0x1a then g.start 0 .closed
  else match g.mode with
    | .ground => g.start (if 0x20 ≤ b ∧ b < 0x7f then 1 else 0) .closed
    | .escape => { g.start 0 .closed with mode := afterEscape b }
    | .intermediate =>
      { g.start 0 .closed with
        mode := if 0x30 ≤ b ∧ b < 0x7f then .ground else .intermediate }
    | .control =>
      { g.start 0 .closed with mode := if 0x40 ≤ b ∧ b < 0x7f then .ground else .control }
    | .string bellEnds =>
      { g.start 0 .closed with mode := if bellEnds && b == 7 then .ground else .string bellEnds }

def add (g : Gauge) (r : Rune) : Gauge :=
  match r, g.mode with
  | .char c, mode =>
    if c.toNat < 0x80 then g.ascii c.toNat
    else match mode with
      | .string _ => g
      | _ => g.character c.toNat
  | .invalid _, .string _ => g
  | .invalid b, _ =>
    if 0xc2 ≤ b ∧ b ≤ 0xf4 then g.character 0xfffd
    else { g.start 0 .closed with mode := strayMode b }

end Gauge

/-- The number of cells of a line. -/
def width (t : Text) : Nat := (t.runes.foldl Gauge.add {}).total

end Terminal

end Runsheet
