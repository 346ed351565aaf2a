/-! # Reading directions

A word is read forward from the cursor to its end or backward from the cursor to its start.
Affixes are compared in reading order, so suffixes are compared by their reversed bytes. -/
namespace WordStem

/-- The way a word is read from the cursor: prefixes are read forward, suffixes backward. -/
inductive Direction where
  | forward
  | backward
deriving DecidableEq, Repr

namespace Direction

def opposite : Direction → Direction
  | forward => backward
  | backward => forward

/-- Lists the items of a text in the order in which they are read. -/
def inReadingOrder {Item : Type} : Direction → List Item → List Item
  | forward, items => items
  | backward, items => items.reverse

@[simp] theorem length_inReadingOrder {Item : Type} (direction : Direction)
    (items : List Item) : (direction.inReadingOrder items).length = items.length := by
  cases direction <;> simp [inReadingOrder]

end Direction

end WordStem
