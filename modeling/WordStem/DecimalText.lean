import WordStem.ShortestDecimal

/-! # The text of numbers

Numbers are written with the fewest digits that read back, plainly when they are neither large
nor small and with a power of ten otherwise. A layout says where plain writing begins and ends.
Scores are written with a fixed number of places instead. -/
namespace WordStem

/-- How a number is laid out: the powers of ten of the first digit between which it is written
plainly, whether a positive power of ten carries a plus sign, and what happens to ties. -/
structure DecimalLayout where
  lowestPlain : Int
  highestPlain : Int
  plusSign : Bool
  tie : Tie
deriving DecidableEq, Repr

/-- Numbers in descriptions are plain from `0.0001` up to below `1e16`. -/
def DecimalLayout.description : DecimalLayout where
  lowestPlain := -4
  highestPlain := 15
  plusSign := false
  tie := .upward

/-- Numbers in JSON are plain from `0.00001` up to below `1e+16`. -/
def DecimalLayout.json : DecimalLayout where
  lowestPlain := -5
  highestPlain := 15
  plusSign := true
  tie := .toEven

namespace Decimal

/-- Writes a decimal plainly, with at least one digit on each side of the point. -/
def plain (decimal : Decimal) : List Char :=
  let digits := Nat.toDigits 10 decimal.digits
  let whole := digits ++ List.replicate decimal.exponent.toNat '0'
  let places := (-decimal.exponent).toNat
  if places = 0 then
    whole ++ ['.', '0']
  else
    let padded := List.replicate (places + 1 - digits.length) '0' ++ digits
    padded.take (padded.length - places) ++ ['.'] ++ padded.drop (padded.length - places)

def leadingExponent (decimal : Decimal) : Int :=
  decimal.exponent + (Nat.toDigits 10 decimal.digits).length - 1

/-- Writes a decimal with one digit before the point and a power of ten. -/
def scientific (decimal : Decimal) (plusSign : Bool) : List Char :=
  let exponent := decimal.leadingExponent
  let mantissa :=
    match Nat.toDigits 10 decimal.digits with
    | first :: second :: rest => first :: '.' :: second :: rest
    | digits => digits
  let sign := if exponent < 0 then ['-'] else if plusSign then ['+'] else []
  mantissa ++ ['e'] ++ sign ++ Nat.toDigits 10 exponent.natAbs

end Decimal

def DecimalLayout.write (layout : DecimalLayout) (value : Float) : String :=
  let sign := if hasMinusSign value then ['-'] else []
  let magnitude := Magnitude.ofFloat value
  if magnitude.mantissa = 0 then
    String.ofList (sign ++ ['0', '.', '0'])
  else
    let decimal := magnitude.shortestDecimal layout.tie
    let exponent := decimal.leadingExponent
    if layout.lowestPlain ≤ exponent ∧ exponent ≤ layout.highestPlain then
      String.ofList (sign ++ decimal.plain)
    else
      String.ofList (sign ++ decimal.scientific layout.plusSign)

/-- The text of a number in a description, where numbers that are not finite have names. -/
def describeNumber (value : Float) : String :=
  if value.isNaN then "NaN"
  else if value.isInf then if hasMinusSign value then "-inf" else "inf"
  else DecimalLayout.description.write value

/-- A quotient rounded to the nearest whole number, ties to the even one. -/
def roundedQuotient (count divisor : Nat) : Nat :=
  let below := count / divisor
  let rest := 2 * (count % divisor)
  if divisor < rest ∨ (rest = divisor ∧ below % 2 = 1) then below + 1 else below

/-- Writes a number with a fixed number of places behind the point, which must not be zero. -/
def fixedPlaces (places : Nat) (value : Float) : String :=
  if value.isNaN || value.isInf then
    describeNumber value
  else
    let magnitude := Magnitude.ofFloat value
    let (count, divisor) := Magnitude.quotient magnitude.mantissa magnitude.exponent
    let digits := Nat.toDigits 10 (roundedQuotient (count * Nat.pow 10 places) divisor)
    let padded := List.replicate (places + 1 - digits.length) '0' ++ digits
    let sign := if hasMinusSign value then ['-'] else []
    String.ofList (sign ++ padded.take (padded.length - places) ++ ['.'] ++
      padded.drop (padded.length - places))

end WordStem
