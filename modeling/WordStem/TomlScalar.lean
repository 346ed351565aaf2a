import WordStem.DecimalReading
import WordStem.TomlDocument

/-! # Numbers, truth values and moments in TOML

The values of TOML that are written without quotes or brackets. -/
namespace WordStem

namespace Toml

/-- Digits with single underscores between them, the underscores left out. There must be a digit
at both ends. -/
def ungroup? (isDigit : Char → Bool) : List Char → Option (List Char)
  | [] => none
  | [digit] => if isDigit digit then some [digit] else none
  | digit :: '_' :: rest => if isDigit digit then (ungroup? isDigit rest).map (digit :: ·) else none
  | digit :: rest => if isDigit digit then (ungroup? isDigit rest).map (digit :: ·) else none

/-- Decimal digits that do not begin with a needless zero. -/
def wholeDigits? (text : List Char) : Option (List Char) :=
  match ungroup? Char.isDigit text with
  | some ('0' :: _ :: _) => none
  | digits? => digits?

def digitValue (digit : Char) : Nat :=
  if digit.isDigit then digit.toNat - '0'.toNat else digit.toLower.toNat - 'a'.toNat + 10

/-- Whether a character is a digit to a base of at most sixteen. -/
def isDigitOf (base : Nat) (digit : Char) : Bool :=
  (digit.isDigit || ('a' ≤ digit.toLower && digit.toLower ≤ 'f')) && digitValue digit < base

def valueOf (base : Nat) (digits : List Char) : Nat :=
  digits.foldl (fun total digit => base * total + digitValue digit) 0

/-- Whether every underscore stands between two digits. -/
def areUnderscoresInside (isDigit : Char → Bool) : List Char → Bool
  | before :: '_' :: after :: rest =>
    isDigit before && isDigit after && areUnderscoresInside isDigit (after :: rest)
  | first :: rest => first != '_' && areUnderscoresInside isDigit rest
  | [] => true

/-- Whether a text begins with grouped decimal digits and goes on with what passes for a whole
number at first sight: next to the underscores stand digits to the base sixteen, and there is no
space, no point and no mark of a power of ten. -/
def isLooselyGrouped (text : List Char) : Bool :=
  let leading := text.takeWhile Char.isDigit
  !leading.isEmpty && leading.head? != some '0' &&
    (text.dropWhile Char.isDigit).head? == some '_' &&
    !text.any (fun character => [' ', '.', 'e', 'E'].contains character) &&
    areUnderscoresInside (isDigitOf 16) text

/-- Whether a text can be the digits of a whole number to a base that is named in front of them.
The digits may be missing. -/
def isBased (base : Nat) (text : List Char) : Bool :=
  text.isEmpty || (ungroup? (isDigitOf base) text).isSome

/-- Whether a text without sign can be a decimal whole number. -/
def isDecimal (text : List Char) : Bool :=
  (wholeDigits? text).isSome || isLooselyGrouped text

/-- Whether a text looks like a whole number, which need not have a value. -/
def isWhole : List Char → Bool
  | '0' :: 'x' :: digits => isBased 16 digits
  | '0' :: 'o' :: digits => isBased 8 digits
  | '0' :: 'b' :: digits => isBased 2 digits
  | '+' :: digits => isDecimal digits
  | '-' :: digits => isDecimal digits
  | digits => isDecimal digits

def inBase? (base : Nat) (text : List Char) : Option Int :=
  (ungroup? (isDigitOf base) text).map fun digits => Int.ofNat (valueOf base digits)

def decimal? (text : List Char) : Option Int :=
  (wholeDigits? text).map fun digits => Int.ofNat (Nat.ofDigitChars 10 digits 0)

/-- Whether a whole number fits into 128 bits, with or without a sign. -/
def fits (value : Int) : Bool :=
  -(Nat.pow 2 127 : Int) ≤ value && value < (Nat.pow 2 128 : Int)

/-- The value of a whole number, if it has one and is not too large. -/
def wholeNumber? (text : List Char) : Option Int :=
  let value? :=
    match text with
    | '0' :: 'x' :: digits => inBase? 16 digits
    | '0' :: 'o' :: digits => inBase? 8 digits
    | '0' :: 'b' :: digits => inBase? 2 digits
    | '+' :: digits => decimal? digits
    | '-' :: digits => (decimal? digits).map fun value => -value
    | digits => decimal? digits
  value?.filter fits

def isExponent : List Char → Bool
  | mark :: rest =>
    (mark == 'e' || mark == 'E') &&
      (ungroup? Char.isDigit (DecimalReading.takeSign rest).2).isSome
  | [] => false

/-- Whether a text without sign is a number with a point or a power of ten. -/
def isScientific (text : List Char) : Bool :=
  let isGrouped (character : Char) : Bool := character.isDigit || character == '_'
  (wholeDigits? (text.takeWhile isGrouped)).isSome &&
    match text.dropWhile isGrouped with
    | '.' :: rest =>
      (ungroup? Char.isDigit (rest.takeWhile isGrouped)).isSome &&
        (rest.dropWhile isGrouped == [] || isExponent (rest.dropWhile isGrouped))
    | rest => isExponent rest

/-- Whether a text looks like a number that is not whole. -/
def isReal (text : List Char) : Bool :=
  let (_, unsigned) := DecimalReading.takeSign text
  unsigned == "inf".toList || unsigned == "nan".toList || isScientific unsigned

/-- The value of a number that is not whole. One that is written with digits must be finite. -/
def realNumber? (text : List Char) : Option Float := do
  let (negative, unsigned) := DecimalReading.takeSign text
  let magnitude ←
    if unsigned = "inf".toList then some DecimalReading.infinite
    else if unsigned = "nan".toList then some (0.0 / 0.0)
    else (DecimalReading.unsigned? (unsigned.filter (· != '_'))).filter fun value => !value.isInf
  return if negative then -magnitude else magnitude

/-- Takes a number of a fixed count of digits off the front of a text. -/
def takeNumber? (count : Nat) (text : List Char) : Option (Nat × List Char) :=
  let digits := text.take count
  if digits.length = count ∧ digits.all Char.isDigit then
    some (Nat.ofDigitChars 10 digits 0, text.drop count)
  else
    none

/-- Takes one expected character off the front of a text. -/
def take? (expected : Char) : List Char → Option (List Char)
  | character :: rest => if character = expected then some rest else none
  | [] => none

def daysOfMonth (year month : Nat) : Nat :=
  if month = 2 then
    if year % 4 = 0 ∧ (year % 100 ≠ 0 ∨ year % 400 = 0) then 29 else 28
  else if month ∈ [4, 6, 9, 11] then 30
  else 31

def takeDate? (text : List Char) : Option (List Char) := do
  let (year, rest) ← takeNumber? 4 text
  let (month, rest) ← takeNumber? 2 (← take? '-' rest)
  let (day, rest) ← takeNumber? 2 (← take? '-' rest)
  if 1 ≤ month ∧ month ≤ 12 ∧ 1 ≤ day ∧ day ≤ daysOfMonth year month then some rest else none

def takeClock? (text : List Char) : Option (List Char) := do
  let (hour, rest) ← takeNumber? 2 text
  let (minute, rest) ← takeNumber? 2 (← take? ':' rest)
  if hour ≤ 23 ∧ minute ≤ 59 then some rest else none

/-- Takes a time of day off the front of a text. The seconds may be missing, and a leap second is
allowed. -/
def takeTime? (text : List Char) : Option (List Char) := do
  let rest ← takeClock? text
  match take? ':' rest with
  | none => some rest
  | some rest =>
    let (second, rest) ← takeNumber? 2 rest
    if 60 < second then none
    else
      match take? '.' rest with
      | none => some rest
      | some rest =>
        if (rest.takeWhile Char.isDigit).isEmpty then none else some (rest.dropWhile Char.isDigit)

/-- Whether a text is a distance from universal time, or empty. -/
def isOffset : List Char → Bool
  | [] => true
  | [mark] => mark == 'Z' || mark == 'z'
  | sign :: rest => (sign == '+' || sign == '-') && takeClock? rest == some []

def isMoment (text : List Char) : Bool :=
  match takeDate? text with
  | some [] => true
  | some (between :: rest) =>
    (between == 'T' || between == 't' || between == ' ') &&
      (takeTime? rest).any isOffset
  | none => takeTime? text == some []

/-- The value of a text without quotes. A number may turn out to have none. -/
def scalar? (text : List Char) : Option Value :=
  if text = "true".toList then some (.bool true)
  else if text = "false".toList then some (.bool false)
  else if isWhole text then
    match wholeNumber? text with
    | some value => some (.integer value)
    | none => some (.valueless (String.ofList text))
  else if isReal text then
    match realNumber? text with
    | some value => some (.real value)
    | none => some (.valueless (String.ofList text))
  else if isMoment text then some (.moment (String.ofList text))
  else none

def isBlank (character : Char) : Bool :=
  character == ' ' || character == '\t'

/-- Whether a character can stand in a value without quotes. What it may be there is decided by
the value as a whole. -/
def isScalarCharacter (character : Char) : Bool :=
  !(isBlank character || "=,[]\x7b\x7d#\r\n".toList.contains character)

/-- Whether a value without quotes goes on behind blanks. Quotes there would begin another value. -/
def goesOn (text : List Char) : Bool :=
  match text.dropWhile isBlank with
  | next :: _ => isScalarCharacter next && next != '"' && next != '\x27'
  | [] => false

/-- Takes a value without quotes off the front of a text. The blanks between its parts belong to
it, such as the one between a date and a time of day. -/
def takeScalar : List Char → List Char × List Char
  | [] => ([], [])
  | character :: rest =>
    if isScalarCharacter character || (isBlank character && goesOn rest) then
      let (taken, rest) := takeScalar rest
      (character :: taken, rest)
    else
      ([], character :: rest)

def readScalar? (text : List Char) : Option (Value × List Char) :=
  let (taken, rest) := takeScalar text
  (scalar? taken).map fun value => (value, rest)

end Toml

end WordStem
