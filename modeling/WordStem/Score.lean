import WordStem.FloatMagnitude

/-! # Scores

A score is kept as its bits. They tell apart what the number does not: values that are not numbers
have a sign and other bits too, and the total order of floating-point bits looks at all of them.
Which of its bit patterns a computation leaves that does not end in a number is up to the machine,
so the pattern has to be given beside the value. -/
namespace WordStem

/-- The bits of a floating-point value. -/
structure Score where
  bits : UInt64
deriving DecidableEq, Repr

namespace Score

def value (score : Score) : Float :=
  .ofBits score.bits

instance : Coe Score Float where
  coe := value

def isMinus (score : Score) : Bool :=
  score.bits.toNat / Nat.pow 2 63 == 1

/-- The bits without the sign, as a number. -/
def magnitude (score : Score) : Nat :=
  score.bits.toNat % Nat.pow 2 63

/-- The magnitude of the infinities. Those of all numbers are smaller. -/
def infinity : Nat := 2047 * Nat.pow 2 52

def isNaN (score : Score) : Bool :=
  infinity < score.magnitude

/-- The score with a value. If it is not a number, its bits are those that are left over from the
computation, provided that they do not spell a number. -/
def of (value : Float) (leftover : UInt64) : Score :=
  if value.isNaN && isNaN ⟨leftover⟩ then ⟨leftover⟩ else ⟨value.toBits⟩

/-- The place of a score in the total order: bits under a minus sign count downward, from just below
zero. -/
def orderKey (score : Score) : Int :=
  if score.isMinus then -1 - (score.magnitude : Int) else score.magnitude

end Score

end WordStem
