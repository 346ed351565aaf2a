import WordStem.Failure
import WordStem.JsonValue
import WordStem.SparseMapping

/-! # Pair lists in JSON

A sparse mapping is written as a JSON list of pairs of index and number. Reading accepts such
lists only. Numbers are read by keeping as many leading digits as fit into 64 bits and scaling
them by a power of ten, which may differ from the nearest number in the last place. -/
namespace WordStem

def SparseMapping.toJson (mapping : SparseMapping) : JsonValue :=
  .list (mapping.entries.map fun entry => .list [.whole entry.1, .real entry.2])

namespace PairListText

def isBlank (character : Char) : Bool :=
  character == ' ' || character == '\t' || character == '\n' || character == '\r'

def skipBlanks (text : List Char) : List Char :=
  text.dropWhile isBlank

def expect? (expected : Char) (text : List Char) : Option (List Char) :=
  match skipBlanks text with
  | character :: rest => if character = expected then some rest else none
  | [] => none

def largestWord : Nat := UInt64.size - 1

/-- Appends digits to a number while it fits into 64 bits, and answers how many digits are
left over. -/
def absorb (number : Nat) : List Char → Nat × Nat
  | [] => (number, 0)
  | digit :: rest =>
    let longer := 10 * number + (digit.toNat - '0'.toNat)
    if longer ≤ largestWord then absorb longer rest else (number, rest.length + 1)

/-- Scales a number by a power of ten, in steps that a single power of ten allows. There is no
answer when the result is too large. -/
def scaleByTen? (value : Float) (exponent : Int) : Option Float :=
  if 0 ≤ exponent then
    if value == 0.0 then some value
    else if 308 < exponent then none
    else
      let scaled := value * Float.ofScientific 1 false exponent.toNat
      if scaled.isInf then none else some scaled
  else if -308 ≤ exponent then
    some (value / Float.ofScientific 1 false exponent.natAbs)
  else if value == 0.0 then
    some value
  else
    scaleByTen? (value / 1e308) (exponent + 308)
termination_by exponent.natAbs
decreasing_by omega

/-- A number as it is written: a whole number that fits into 64 bits without sign, or any
other. -/
inductive WrittenNumber where
  | whole (value : Nat)
  | other (value : Float)

/-- Reads a power of ten. The answer is `none` when there is none, and a malformed one is
refused. -/
def readExponent? (text : List Char) : Option (Option Int × List Char) :=
  match text with
  | mark :: rest =>
    if mark = 'e' ∨ mark = 'E' then
      let (negative, rest) :=
        match rest with
        | '-' :: rest => (true, rest)
        | '+' :: rest => (false, rest)
        | rest => (false, rest)
      let digits := rest.takeWhile Char.isDigit
      if digits.isEmpty then
        none
      else
        let value : Int := Nat.ofDigitChars 10 digits 0
        some (some (if negative then -value else value), rest.drop digits.length)
    else
      some (none, text)
  | [] => some (none, [])

/-- Reads the digits behind a point. The answer is `none` when there is no point, and a point
without digits is refused. -/
def readFraction? (text : List Char) : Option (Option (List Char) × List Char) :=
  match text with
  | '.' :: rest =>
    let digits := rest.takeWhile Char.isDigit
    if digits.isEmpty then none else some (some digits, rest.drop digits.length)
  | _ => some (none, text)

/-- The largest power of ten that is counted; a larger one makes every number infinite or
zero. -/
def largestExponent : Int := Nat.pow 2 31 - 1

def assemble? (negative : Bool) (digits : List Char) (fraction? : Option (List Char))
    (exponent? : Option Int) : Option WrittenNumber :=
  let (leading, dropped) := absorb 0 digits
  let signed (value : Float) : Float := if negative then -value else value
  if dropped = 0 ∧ fraction?.isNone ∧ exponent?.isNone then
    some (if negative then .other (signed leading.toFloat) else .whole leading)
  else
    let fraction := fraction?.getD []
    let (kept, ignored) := absorb leading fraction
    let exponent := exponent?.getD 0
    if largestExponent < exponent ∧ kept ≠ 0 then
      none
    else if largestExponent < exponent.natAbs then
      some (.other (signed 0.0))
    else
      let places : Int := dropped - (fraction.length - ignored : Nat)
      (scaleByTen? kept.toFloat (places + exponent)).map fun value => .other (signed value)

/-- Reads a number. A leading zero stands alone before the point. -/
def readNumber? (text : List Char) : Option (WrittenNumber × List Char) := do
  let (negative, unsigned) :=
    match skipBlanks text with
    | '-' :: rest => (true, rest)
    | rest => (false, rest)
  let digits := unsigned.takeWhile Char.isDigit
  if digits.isEmpty ∨ (1 < digits.length ∧ digits.head? = some '0') then
    none
  else
    let (fraction?, rest) ← readFraction? (unsigned.drop digits.length)
    let (exponent?, rest) ← readExponent? rest
    let number ← assemble? negative digits fraction? exponent?
    return (number, rest)

def readPair? (text : List Char) : Option ((Nat × Float) × List Char) := do
  let rest ← expect? '[' text
  let (index, rest) ← readNumber? rest
  let rest ← expect? ',' rest
  let (value, rest) ← readNumber? rest
  let rest ← expect? ']' rest
  match index, value with
  | .whole index, .whole value => return ((index, value.toFloat), rest)
  | .whole index, .other value => return ((index, value), rest)
  | .other _, _ => none

/-- Reads the pairs after the first one up to the closing bracket. Every pair takes a character,
so the length of the text bounds their number. -/
def readMore? : Nat → List Char → Option (List (Nat × Float) × List Char)
  | 0, _ => none
  | bound + 1, text => do
    match expect? ']' text with
    | some rest => return ([], rest)
    | none =>
      let rest ← expect? ',' text
      let (pair, rest) ← readPair? rest
      let (pairs, rest) ← readMore? bound rest
      return (pair :: pairs, rest)

def read? (text : List Char) : Option (List (Nat × Float)) := do
  let rest ← expect? '[' text
  let (pairs, rest) ←
    match expect? ']' rest with
    | some rest => some ([], rest)
    | none => do
      let (pair, rest) ← readPair? rest
      let (pairs, rest) ← readMore? (rest.length + 1) rest
      some (pair :: pairs, rest)
  if (skipBlanks rest).isEmpty then some pairs else none

end PairListText

def SparseMapping.ofJsonText (text : String) : Except Failure SparseMapping :=
  match PairListText.read? text.toList with
  | some pairs => .ok (.ofPairs pairs)
  | none => .error (.json "a list of pairs of index and number was expected")

end WordStem
