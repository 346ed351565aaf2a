import WordStem.Score
import WordStem.VectorMeasures

/-! # Ranking pairs of vectors

All pairs of vectors of a list are ranked by the cosine of the angle between them, the highest
first; pairs with the same cosine are ranked by their positions. -/
namespace WordStem

/-- The similarity of the vectors at two positions. -/
structure SimilarityPair where
  left : Nat
  right : Nat
  score : Score
deriving DecidableEq, Repr

namespace SimilarityPair

def ranksBefore (first second : SimilarityPair) : Bool :=
  let firstKey := first.score.orderKey
  let secondKey := second.score.orderKey
  if firstKey ≠ secondKey then secondKey < firstKey
  else if first.left ≠ second.left then first.left < second.left
  else first.right ≤ second.right

end SimilarityPair

/-- What is left over from the computation of a score for two positions that does not end in a
number. -/
abbrev Leftovers := Nat → Nat → UInt64

/-- The pairs of each vector with the vectors after it, the first vector being at a position. -/
def pairsFrom (leftovers : Leftovers) (position : Nat) : List SparseMapping → List SimilarityPair
  | [] => []
  | vector :: others =>
    (others.zipIdx (position + 1)).map (fun other =>
      { left := position, right := other.2,
        score := .of (vector.cosine other.1) (leftovers position other.2) }) ++
      pairsFrom leftovers (position + 1) others

def rankPairsWith (leftovers : Leftovers) (vectors : List SparseMapping) : List SimilarityPair :=
  (pairsFrom leftovers 0 vectors).mergeSort SimilarityPair.ranksBefore

/-- What most machines leave over: a value that is not a number goes through a computation as it is,
and has a minus sign where numbers lead to it. -/
def usualLeftovers (vectors : List SparseMapping) : Leftovers := fun left right =>
  let stored := [left, right].any fun position =>
    (vectors.getD position .empty).values.any Float.isNaN
  if stored then 0x7FF8000000000000 else 0xFFF8000000000000

def rankPairs (vectors : List SparseMapping) : List SimilarityPair :=
  rankPairsWith (usualLeftovers vectors) vectors

/-- The best pairs that score at least a given minimum, at most as many as a limit says. -/
def bestPairs (vectors : List SparseMapping) (minimumScore : Float) (limit? : Option Nat) :
    List SimilarityPair :=
  let admitted := (rankPairs vectors).filter fun pair => minimumScore ≤ pair.score.value
  match limit? with
  | some limit => admitted.take limit
  | none => admitted

end WordStem
