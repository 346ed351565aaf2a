import WordStem.FloatMagnitude

/-! # Shortest decimals

The decimal with the fewest digits that still reads back as a given floating-point number, and
of several such decimals the one nearest to the number. A decimal reads back as the number when
it lies in the interval halfway to the neighbouring numbers; the ends of the interval belong to
it when the mantissa is even. -/
namespace WordStem

/-- The number `digits * 10 ^ exponent`. -/
structure Decimal where
  digits : Nat
  exponent : Int
deriving DecidableEq, Repr

/-- What happens to a number that lies halfway between the two decimals next to it. -/
inductive Tie where
  | upward
  | toEven
deriving DecidableEq, Repr

/-- Moves trailing zeros of the digits into the exponent, at most as many as there are digits. -/
def Decimal.withoutTrailingZeros (decimal : Decimal) : Decimal :=
  strip (Nat.toDigits 10 decimal.digits).length decimal
where
  /-- Strips at most a number of zeros. -/
  strip : Nat → Decimal → Decimal
    | 0, decimal => decimal
    | count + 1, decimal =>
      if decimal.digits ≠ 0 ∧ decimal.digits % 10 = 0 then
        strip count { digits := decimal.digits / 10, exponent := decimal.exponent + 1 }
      else
        decimal

namespace Magnitude

/-- The interval of the numbers that read back as a magnitude, in quarters of its last binary
place: its lower end, the magnitude itself and its upper end. Below the least mantissa the
neighbours are twice as close. -/
def readBackInterval (magnitude : Magnitude) : Nat × Nat × Nat :=
  let middle := 4 * magnitude.mantissa
  let atStep := magnitude.mantissa == normalMantissa && lowestExponent < magnitude.exponent
  (middle - if atStep then 1 else 2, middle, middle + 2)

/-- The power of ten of the first digit of a positive magnitude. -/
def decimalExponent (magnitude : Magnitude) : Int :=
  let (count, divisor) := quotient magnitude.mantissa magnitude.exponent
  let enlarged := count * Nat.pow 10 400 / divisor
  (Nat.toDigits 10 enlarged).length - 401

/-- The decimal with a given power of ten in its last place that reads back as the magnitude, if
there is one; of two the nearer. -/
def decimalAt? (magnitude : Magnitude) (tie : Tie) (place : Int) : Option Decimal :=
  let (low, middle, high) := magnitude.readBackInterval
  let (unit, divisor) := quotient 1 (magnitude.exponent - 2)
  let unit := unit * Nat.pow 10 (-place).toNat
  let divisor := divisor * Nat.pow 10 place.toNat
  let below := middle * unit / divisor
  let closed := magnitude.mantissa % 2 == 0
  let readsBack (digits : Nat) : Bool :=
    if closed then
      low * unit ≤ digits * divisor && digits * divisor ≤ high * unit
    else
      low * unit < digits * divisor && digits * divisor < high * unit
  let rest := 2 * (middle * unit % divisor)
  let preferAbove : Bool :=
    if rest = divisor then
      match tie with
      | .upward => true
      | .toEven => below % 2 == 1
    else
      divisor < rest
  match readsBack below, readsBack (below + 1) with
  | false, false => none
  | true, false => some { digits := below, exponent := place }
  | false, true => some { digits := below + 1, exponent := place }
  | true, true =>
    some { digits := if preferAbove then below + 1 else below, exponent := place }

/-- The shortest decimal of a positive magnitude. Seventeen digits are always enough. -/
def shortestDecimal (magnitude : Magnitude) (tie : Tie) : Decimal :=
  let top := magnitude.decimalExponent
  let found := (List.range 17).findSome? fun (more : Nat) =>
    magnitude.decimalAt? tie (top - more)
  (found.getD { digits := 0, exponent := 0 }).withoutTrailingZeros

end Magnitude

end WordStem
