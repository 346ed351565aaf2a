/-! # Sets of code points

A property of characters is written as the ascending list of code points at which membership
changes: the first one begins the lowest interval of members, the second one ends it, and so
on. -/
namespace WordStem

/-- A set of characters, by the ascending code points at which membership changes. -/
structure CodePointSet where
  changes : List Nat

namespace CodePointSet

/-- Whether a code point lies behind an odd number of changes. -/
def behindOdd (code : Nat) : List Nat → Bool
  | [] => false
  | change :: later => if code < change then false else !behindOdd code later

def contains (set : CodePointSet) (character : Char) : Bool :=
  behindOdd character.toNat set.changes

end CodePointSet

end WordStem
