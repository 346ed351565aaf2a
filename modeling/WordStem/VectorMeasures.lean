import WordStem.SparseMapping

/-! # Measures of vectors

Norms, products and the cosine of sparse mappings taken as vectors. Sums run over the stored
entries in ascending order of their indices. -/
namespace WordStem.SparseMapping

def sum (values : List Float) : Float :=
  values.foldl (· + ·) 0.0

def l1Norm (vector : SparseMapping) : Float :=
  sum (vector.values.map Float.abs)

def l2Norm (vector : SparseMapping) : Float :=
  (sum (vector.values.map fun value => value * value)).sqrt

/-- The larger of two numbers; a number wins over one that is not a number. -/
def larger (left right : Float) : Float :=
  if left.isNaN then right
  else if right.isNaN then left
  else if left < right then right
  else left

/-- The largest stored number, or zero if nothing is stored. -/
def maximum (vector : SparseMapping) : Float :=
  match vector.values with
  | [] => 0.0
  | first :: rest => rest.foldl larger first

/-- The sum of the products of entries with the same index, read from two ascending lists side by
side onto a sum so far. -/
def dotFrom (total : Float) : List (Nat × Float) → List (Nat × Float) → Float
  | [], _ => total
  | _, [] => total
  | (i, x) :: left, (j, y) :: right =>
    if i < j then dotFrom total left ((j, y) :: right)
    else if j < i then dotFrom total ((i, x) :: left) right
    else dotFrom (total + x * y) left right
termination_by left right => left.length + right.length

def dot (left right : SparseMapping) : Float :=
  dotFrom 0.0 left.entries right.entries

/-- The cosine of the angle between two vectors, which is zero when one of them has no length. -/
def cosine (left right : SparseMapping) : Float :=
  let leftNorm := left.l2Norm
  let rightNorm := right.l2Norm
  if leftNorm == 0.0 || rightNorm == 0.0 then 0.0
  else dot left right / (leftNorm * rightNorm)

/-- Scales a vector to unit length, if it has a length. -/
def normalize (vector : SparseMapping) : SparseMapping :=
  let norm := vector.l2Norm
  if 0.0 < norm then vector.scale (1.0 / norm) else vector

end WordStem.SparseMapping
