/-! # Reading decimal numbers

Numbers that people write: whole numbers, and numbers with a point and a power of ten. The value
read is the number nearest to what is written. -/
namespace WordStem

namespace DecimalReading

def infinite : Float := 1.0 / 0.0

/-- The number nearest to `digits` times a power of ten. Powers far outside the range of numbers
are decided by the count of digits alone, so that they are never computed. -/
def nearest (digits : Nat) (exponent : Int) : Float :=
  let magnitude : Int := (Nat.toDigits 10 digits).length + exponent
  if digits = 0 then 0.0
  else if 310 < magnitude then infinite
  else if magnitude < -330 then 0.0
  else if exponent < 0 then Float.ofScientific digits true exponent.natAbs
  else Float.ofScientific digits false exponent.toNat

/-- Takes a sign off the front of a text. Answers whether it was a minus sign. -/
def takeSign : List Char → Bool × List Char
  | '-' :: rest => (true, rest)
  | '+' :: rest => (false, rest)
  | text => (false, text)

def takeDigits (text : List Char) : List Char × List Char :=
  (text.takeWhile Char.isDigit, text.dropWhile Char.isDigit)

/-- Reads a whole text as a power of ten, which is zero when there is nothing to read. -/
def exponent? : List Char → Option Int
  | [] => some 0
  | mark :: rest =>
    if mark = 'e' ∨ mark = 'E' then
      let (negative, digits) := takeSign rest
      if digits ≠ [] ∧ digits.all Char.isDigit then
        let value : Int := Nat.ofDigitChars 10 digits 0
        some (if negative then -value else value)
      else
        none
    else
      none

/-- Reads a whole text as a number without a sign. At least one digit is needed, before or behind
the point. -/
def unsigned? (text : List Char) : Option Float := do
  let (whole, rest) := takeDigits text
  let (fraction, rest) :=
    match rest with
    | '.' :: rest => takeDigits rest
    | rest => ([], rest)
  if whole = [] ∧ fraction = [] then
    none
  else
    let exponent ← exponent? rest
    return nearest (Nat.ofDigitChars 10 (whole ++ fraction) 0) (exponent - fraction.length)

/-- Whether a text is a word, whatever the case of its letters. -/
def isWord (word : String) (text : List Char) : Bool :=
  text.map Char.toLower == word.toList

end DecimalReading

open DecimalReading in
/-- Reads a whole text as a number, which may have a sign and may be infinite or not a number. -/
def readDecimal? (text : String) : Option Float :=
  let (negative, unsigned) := takeSign text.toList
  let magnitude? :=
    if isWord "inf" unsigned || isWord "infinity" unsigned then some infinite
    else if isWord "nan" unsigned then some (0.0 / 0.0)
    else unsigned? unsigned
  magnitude?.map fun magnitude => if negative then -magnitude else magnitude

/-- Reads a whole text as a whole number that is at most a given one. A plus sign is allowed. -/
def readCount? (largest : Nat) (text : String) : Option Nat :=
  let digits :=
    match text.toList with
    | '+' :: rest => rest
    | digits => digits
  let value := Nat.ofDigitChars 10 digits 0
  if digits ≠ [] ∧ digits.all Char.isDigit ∧ value ≤ largest then some value else none

end WordStem
