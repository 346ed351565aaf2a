import Std.Data.HashMap

/-! # Vocabularies

A vocabulary numbers distinct terms in the order in which they are first seen. The terms are kept
by their number and, for looking a number up, by the term. -/
namespace WordStem

/-- Terms by number and numbers by term. -/
structure Vocabulary where
  terms : Array String
  numbers : Std.HashMap String Nat

namespace Vocabulary

def empty : Vocabulary where
  terms := #[]
  numbers := ∅

def size (vocabulary : Vocabulary) : Nat :=
  vocabulary.terms.size

def number? (vocabulary : Vocabulary) (term : String) : Option Nat :=
  vocabulary.numbers[term]?

def term? (vocabulary : Vocabulary) (number : Nat) : Option String :=
  vocabulary.terms[number]?

/-- The number of a term, which becomes the next free one if the term is new. -/
def intern (vocabulary : Vocabulary) (term : String) : Nat × Vocabulary :=
  match vocabulary.number? term with
  | some number => (number, vocabulary)
  | none =>
    let number := vocabulary.size
    (number,
      { terms := vocabulary.terms.push term
        numbers := vocabulary.numbers.insert term number })

end Vocabulary

end WordStem
