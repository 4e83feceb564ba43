import Runsheet.Text

/-!
The BLAKE2b hash without a key, with a result of 32 bytes.
-/
namespace Runsheet

namespace Blake2b

abbrev Words := Array UInt64

/-- The initial words, which are the fractional parts of square roots of primes. -/
def initial : Words :=
  #[0x6a09e667f3bcc908, 0xbb67ae8584caa73b, 0x3c6ef372fe94f82b, 0xa54ff53a5f1d36f1,
    0x510e527fade682d1, 0x9b05688c2b3e6c1f, 0x1f83d9abfb41bd6b, 0x5be0cd19137e2179]

/-- For each round, the order in which the words of a block are used. -/
def schedule : List (Array Nat) :=
  let first := #[0, 1, 2, 3, 4, 5, 6, 7, 8, 9, 10, 11, 12, 13, 14, 15]
  let second := #[14, 10, 4, 8, 9, 15, 13, 6, 1, 12, 0, 2, 11, 7, 5, 3]
  [first, second,
    #[11, 8, 12, 0, 5, 2, 15, 13, 10, 14, 3, 6, 7, 1, 9, 4],
    #[7, 9, 3, 1, 13, 12, 11, 14, 2, 6, 5, 10, 4, 0, 15, 8],
    #[9, 0, 5, 7, 2, 4, 10, 15, 14, 1, 11, 12, 6, 8, 3, 13],
    #[2, 12, 6, 10, 0, 11, 8, 3, 4, 13, 7, 5, 15, 14, 1, 9],
    #[12, 5, 1, 15, 14, 13, 4, 10, 0, 7, 6, 3, 9, 2, 8, 11],
    #[13, 11, 7, 14, 12, 1, 3, 9, 5, 0, 15, 4, 8, 6, 2, 10],
    #[6, 15, 14, 9, 11, 3, 0, 8, 12, 2, 13, 7, 1, 4, 10, 5],
    #[10, 2, 8, 4, 7, 6, 1, 5, 15, 11, 9, 14, 3, 12, 13, 0],
    first, second]

def rotate (x : UInt64) (n : UInt64) : UInt64 := (x >>> n) ||| (x <<< (64 - n))

def mix (v : Words) (a b c d : Nat) (x y : UInt64) : Words :=
  let va := v.getD a 0 + v.getD b 0 + x
  let vd := rotate (v.getD d 0 ^^^ va) 32
  let vc := v.getD c 0 + vd
  let vb := rotate (v.getD b 0 ^^^ vc) 24
  let va := va + vb + y
  let vd := rotate (vd ^^^ va) 16
  let vc := vc + vd
  let vb := rotate (vb ^^^ vc) 63
  (((v.setIfInBounds a va).setIfInBounds b vb).setIfInBounds c vc).setIfInBounds d vd

/-- The columns and then the diagonals that a round mixes. -/
def quarters : List (Nat × Nat × Nat × Nat) :=
  [(0, 4, 8, 12), (1, 5, 9, 13), (2, 6, 10, 14), (3, 7, 11, 15),
    (0, 5, 10, 15), (1, 6, 11, 12), (2, 7, 8, 13), (3, 4, 9, 14)]

def round (block : Words) (v : Words) (order : Array Nat) : Words :=
  (quarters.zipIdx).foldl (fun v ((a, b, c, d), i) =>
    mix v a b c d (block.getD (order.getD (2 * i) 0) 0) (block.getD (order.getD (2 * i + 1) 0) 0)) v

/-- Takes one block into the chaining value. `count` is the number of bytes read with it. -/
def compress (h : Words) (block : Words) (count : Nat) (last : Bool) : Words :=
  let v := h ++ initial
  let v := v.modify 12 (· ^^^ count.toUInt64)
  let v := if last then v.modify 14 (~~~ ·) else v
  let v := schedule.foldl (round block) v
  h.mapIdx fun i x => x ^^^ v.getD i 0 ^^^ v.getD (i + 8) 0

/-- The word of up to eight bytes, least significant first. -/
def word (t : Text) : UInt64 := t.foldr (fun b acc => (acc <<< 8) ||| b.toUInt64) 0

/-- A text cut into words, with as many as asked for. -/
def words : (count : Nat) → Text → List UInt64
  | 0, _ => []
  | count + 1, t => word (t.take 8) :: words count (t.drop 8)

/-- A block of up to 128 bytes as sixteen words, filled up with zeros. -/
def block (t : Text) : Words := (words 16 t).toArray

/-- Takes the rest of a message into the chaining value, given the number of bytes before it. -/
def absorb (h : Words) (count : Nat) (t : Text) : Words :=
  if (t.drop 128).isEmpty then compress h (block t) (count + t.length) true
  else absorb (compress h (block (t.take 128)) (count + 128) false) (count + 128) (t.drop 128)
termination_by t.length
decreasing_by
  rename_i more
  have := List.length_pos_iff.mpr (mt List.isEmpty_iff.mpr more)
  simp only [List.length_drop] at this ⊢
  omega

/-- The eight bytes of a word, least significant first. -/
def bytes (x : UInt64) : Text := (List.range 8).map fun i => (x >>> (8 * i).toUInt64).toUInt8

def sum256 (t : Text) : Text :=
  let h := absorb (initial.modify 0 (· ^^^ 0x01010020)) 0 t
  (h.toList.flatMap bytes).take 32

end Blake2b

end Runsheet
