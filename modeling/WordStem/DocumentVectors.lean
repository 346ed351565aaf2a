import WordStem.VectorMeasures
import WordStem.Vocabulary
import WordStem.Weighting

/-! # Document vectors

A collection of documents that share a vocabulary. Every document is a vector of the counts of
its terms; the weights of a document follow from the counts and from the number of documents
that hold each term. -/
namespace WordStem

/-- A collection of documents: the vocabulary, the counts of each document, the number of
documents that hold each term, and the room that the counts of a document start with. -/
structure DocumentVectors where
  vocabulary : Vocabulary
  counts : Array SparseMapping
  frequencies : Array Nat
  initialCapacity : Nat

namespace DocumentVectors

def empty (initialCapacity : Nat) : DocumentVectors where
  vocabulary := .empty
  counts := #[]
  frequencies := #[]
  initialCapacity := initialCapacity

def countTerm (state : Vocabulary × SparseMapping) (term : String) : Vocabulary × SparseMapping :=
  let (number, vocabulary) := state.1.intern term
  (vocabulary, state.2.add number 1.0)

/-- Counts one more document for each of the given terms. -/
def countDocument (frequencies : Array Nat) (numbers : List Nat) : Array Nat :=
  numbers.foldl (fun frequencies number => frequencies.modify number (· + 1)) frequencies

/-- Adds a document with the given terms. Answers its position. -/
def addDocument (documents : DocumentVectors) (terms : List String) : Nat × DocumentVectors :=
  let (vocabulary, counts) :=
    terms.foldl countTerm (documents.vocabulary, .withCapacity documents.initialCapacity)
  let newTerms := vocabulary.size - documents.frequencies.size
  (documents.counts.size,
    { vocabulary := vocabulary
      counts := documents.counts.push counts
      frequencies :=
        countDocument (documents.frequencies ++ Array.replicate newTerms 0) counts.indices
      initialCapacity := documents.initialCapacity })

def size (documents : DocumentVectors) : Nat :=
  documents.counts.size

def frequency (documents : DocumentVectors) (number : Nat) : Nat :=
  documents.frequencies.getD number 0

/-- The inverse document frequency of a term, smoothed by one document that holds every term. -/
def inverseFrequency (documents : DocumentVectors) (number : Nat) : Float :=
  let total := documents.size.toFloat
  let holding := (documents.frequency number).toFloat
  ((total + 1.0) / (holding + 1.0)).log + 1.0

def weigh (documents : DocumentVectors) (weighting : Weighting) (counts : SparseMapping) :
    SparseMapping :=
  match weighting with
  | .tf => counts
  | .tfIdf =>
    .ofPairs (counts.entries.map fun entry =>
      (entry.1, entry.2 * documents.inverseFrequency entry.1))

/-- The weights of all documents, scaled to unit length if that is asked for. -/
def weighted (documents : DocumentVectors) (weighting : Weighting) (unitLength : Bool) :
    List SparseMapping :=
  documents.counts.toList.map fun counts =>
    let vector := documents.weigh weighting counts
    if unitLength then vector.normalize else vector

end DocumentVectors

end WordStem
