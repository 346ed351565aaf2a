/-! # Magnitudes of floating-point numbers

A finite floating-point number has a sign and a magnitude, which is a whole number times a power
of two. Everything about the text of numbers and about their order starts from these parts. -/
namespace WordStem

/-- The number `mantissa * 2 ^ exponent`. -/
structure Magnitude where
  mantissa : Nat
  exponent : Int
deriving DecidableEq, Repr

namespace Magnitude

def lowestExponent : Int := -1074

/-- The least mantissa of a magnitude that is not among the smallest. -/
def normalMantissa : Nat := Nat.pow 2 52

def ofFloat (value : Float) : Magnitude :=
  let bits := value.toBits.toNat
  let fraction := bits % normalMantissa
  let field : Nat := bits / normalMantissa % Nat.pow 2 11
  if field = 0 then
    { mantissa := fraction, exponent := lowestExponent }
  else
    { mantissa := fraction + normalMantissa, exponent := field - 1 + lowestExponent }

/-- The whole number and the divisor whose quotient is `count * 2 ^ exponent`. -/
def quotient (count : Nat) (exponent : Int) : Nat × Nat :=
  (count * Nat.pow 2 exponent.toNat, Nat.pow 2 (-exponent).toNat)

end Magnitude

/-- Whether the sign of a number is the minus sign, also of a negative zero. -/
def hasMinusSign (value : Float) : Bool :=
  value.toBits.toNat / Nat.pow 2 63 == 1

end WordStem
