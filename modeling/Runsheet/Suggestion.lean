import Runsheet.Suggestion.Ranking
import Runsheet.Text.Lowercase

/-!
The known name that a misspelt one most likely stands for. Distances count insertions, deletions
and substitutions of single code points.
-/
namespace Runsheet

namespace Suggestion

/-- From the distances of a word to every suffix of `ys`, longest suffix first, those of the word
with `x` put in front. -/
def distancesCons (x : Nat) : (ys : List Nat) → (distances : List Nat) → List Nat
  | [], ds => [ds.headD 0 + 1]
  | y :: ys, ds =>
    let shorter := distancesCons x ys ds.tail
    let change := if x = y then 0 else 1
    min (min (shorter.headD 0 + 1) (ds.headD 0 + 1)) (ds.tail.headD 0 + change) :: shorter

/-- The distances of a word to every suffix of another, longest suffix first. -/
def distances : List Nat → List Nat → List Nat
  | [], ys => (List.range (ys.length + 1)).reverse
  | x :: xs, ys => distancesCons x ys (distances xs ys)

/-- The least number of single code point insertions, deletions and substitutions that turn one
text into the other. -/
def distance (s t : Text) : Nat :=
  (distances (s.runes.map Rune.code) (t.runes.map Rune.code)).headD 0

/-- Whether the target is spelt by code points of the candidate, in order and up to case, and is
not longer than it. -/
def abbreviates (target candidate : Text) : Bool :=
  target.lower.length ≤ candidate.lower.length &&
    (target.lower.runes.map Rune.code).isSublist (candidate.lower.runes.map Rune.code)

/-- The first of the candidates at the least distance. -/
def nearest? (target : Text) : List Text → Option Text
  | [] => none
  | c :: rest =>
    match nearest? target rest with
    | some best => if distance target best < distance target c then some best else some c
    | none => some c

/-- The greatest distance at which a candidate passes for a misspelling. -/
def tolerance : Nat := 2

/-- The candidate that comes first when those that a target abbreviates are ranked by distance. -/
def bestMatch? (target : Text) (candidates : List Text) : Option Text :=
  (Ranking.first? ((candidates.filter (abbreviates target)).map fun c =>
    ⟨c, distance target c⟩)).map Rank.word

/-- The candidate to offer for a target: the first in rank of those it abbreviates, else the nearest
one if it is near enough. The empty text stands for none. -/
def closest (target : Text) (candidates : List Text) : Text :=
  if target.isEmpty then []
  else match bestMatch? target candidates with
    | some best => best
    | none =>
      match nearest? target candidates with
      | some best => if distance target best ≤ tolerance then best else []
      | none => []

end Suggestion

end Runsheet
