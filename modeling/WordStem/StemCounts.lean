/-! # Stemming counters

The counters say how many words went through the stemmers that share them and what happened to
the words. -/
namespace WordStem

/-- How the stemming of one word ended. -/
inductive StemEnd where
  | changed
  | unchanged
  | aborted
deriving DecidableEq, Repr

/-- Words handed to a stemmer, words whose stem differs from them, and words whose program
stopped at a defect. -/
structure StemCounts where
  seen : Nat
  changed : Nat
  aborted : Nat
deriving DecidableEq, Repr

namespace StemCounts

def zero : StemCounts where
  seen := 0
  changed := 0
  aborted := 0

def record (counts : StemCounts) (result : StemEnd) : StemCounts where
  seen := counts.seen + 1
  changed := counts.changed + if result = .changed then 1 else 0
  aborted := counts.aborted + if result = .aborted then 1 else 0

/-- The share of the seen words that were changed, in percent. -/
def changeRate (counts : StemCounts) : Float :=
  if counts.seen = 0 then 0.0 else counts.changed.toFloat / counts.seen.toFloat * 100.0

end StemCounts

end WordStem
