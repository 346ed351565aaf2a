import WordStem.Failure
import WordStem.Lowercase

/-! # Weightings

How the counts of terms become the weights of a document. -/
namespace WordStem

/-- How a count becomes a weight. -/
inductive Weighting where
  /-- The count itself. -/
  | tf
  /-- The count times the inverse document frequency of the term. -/
  | tfIdf
deriving DecidableEq, Repr

namespace Weighting

def name : Weighting → String
  | tf => "tf"
  | tfIdf => "tfidf"

def ofName? (name : String) : Option Weighting :=
  [tf, tfIdf].find? fun weighting => weighting.name == name

/-- The weighting that a name written by a person means, in any case and also with a hyphen. A
refusal shows the name in lowercase. -/
def parse (written : String) : Except Failure Weighting :=
  let lowered := String.ofList (lowercase written.toList)
  if lowered = "tf" then .ok tf
  else if lowered = "tfidf" ∨ lowered = "tf-idf" then .ok tfIdf
  else .error (.invalidValue "weighting (expected tf or tfidf)" lowered)

end Weighting

end WordStem
