import WordStem.CharacterSet
import WordStem.Direction
import WordStem.WordBuffer

/-! # Scanning a word

A scan moves the cursor over one character, several characters or a literal, forward or
backward. It answers the moved buffer, or nothing when the word does not continue that way, so a
scan that fails has no effect. -/
namespace WordStem.WordBuffer

/-- The bytes that can be read from the cursor, in reading order. Backward reading ends at the
floor; a cursor that was set below the floor reads to the start of the word. -/
def view (buffer : WordBuffer) : Direction → List UInt8
  | .forward => (utf8Bytes buffer.text).drop buffer.cursor
  | .backward =>
    let lowest := if buffer.floor ≤ buffer.cursor then buffer.floor else 0
    (((utf8Bytes buffer.text).take buffer.cursor).drop lowest).reverse

def peek? (buffer : WordBuffer) : Direction → Option Char
  | .forward => (cutAt? buffer.text buffer.cursor).bind fun parts => parts.2.head?
  | .backward =>
    if buffer.floor < buffer.cursor then
      (cutAt? buffer.text buffer.cursor).bind fun parts => parts.1.getLast?
    else
      none

def advance (buffer : WordBuffer) (direction : Direction) (count : Nat) : WordBuffer :=
  match direction with
  | .forward => { buffer with cursor := buffer.cursor + count }
  | .backward => { buffer with cursor := buffer.cursor - count }

def stepIf? (buffer : WordBuffer) (direction : Direction) (test : Char → Bool) :
    Option WordBuffer :=
  match buffer.peek? direction with
  | some character =>
    if test character then some (buffer.advance direction character.utf8Size) else none
  | none => none

def next? (buffer : WordBuffer) (direction : Direction) : Option WordBuffer :=
  buffer.stepIf? direction fun _ => true

/-- Steps over a number of characters, or not at all if fewer remain. -/
def hop? (buffer : WordBuffer) (direction : Direction) : Nat → Option WordBuffer
  | 0 => some buffer
  | count + 1 =>
    match buffer.next? direction with
    | some stepped => stepped.hop? direction count
    | none => none

/-- Moves forward to the first character that passes a test. -/
def seek? (buffer : WordBuffer) (test : Char → Bool) : Option WordBuffer :=
  match cutAt? buffer.text buffer.cursor with
  | some (_, ahead) =>
    let skipped := ahead.takeWhile fun character => !test character
    if skipped.length < ahead.length then
      some (buffer.advance .forward (byteLength skipped))
    else
      none
  | none => none

def inSet? (buffer : WordBuffer) (direction : Direction) (set : CharacterSet) :
    Option WordBuffer :=
  buffer.stepIf? direction set.contains

def outSet? (buffer : WordBuffer) (direction : Direction) (set : CharacterSet) :
    Option WordBuffer :=
  buffer.stepIf? direction fun character => !set.contains character

/-- Steps over a character between two others, both included. -/
def inRange? (buffer : WordBuffer) (direction : Direction) (lowest highest : Char) :
    Option WordBuffer :=
  buffer.stepIf? direction fun character => lowest ≤ character && character ≤ highest

/-- Steps over a character that is not between two others. -/
def outRange? (buffer : WordBuffer) (direction : Direction) (lowest highest : Char) :
    Option WordBuffer :=
  buffer.stepIf? direction fun character => !(lowest ≤ character && character ≤ highest)

def consume? (buffer : WordBuffer) (direction : Direction) (literal : String) :
    Option WordBuffer :=
  let bytes := utf8Bytes literal.toList
  if (direction.inReadingOrder bytes).isPrefixOf (buffer.view direction) then
    some (buffer.advance direction bytes.length)
  else
    none

end WordStem.WordBuffer
