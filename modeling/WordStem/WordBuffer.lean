import WordStem.ByteOffset

/-! # The word buffer

The buffer holds one word and the positions that rules move over it, all counted in bytes. The
end of the word, `limit`, is computed from the text, so no edit can leave it stale. Scanning
backward never goes below `floor`, and the two marks delimit the slice that the next edit
replaces. -/
namespace WordStem

/-- One word with a cursor, the lowest position that backward scanning may reach, and the marked
slice. -/
structure WordBuffer where
  text : List Char
  cursor : Nat
  floor : Nat
  sliceStart : Nat
  sliceEnd : Nat
deriving DecidableEq, Repr

namespace WordBuffer

def empty : WordBuffer where
  text := []
  cursor := 0
  floor := 0
  sliceStart := 0
  sliceEnd := 0

/-- Loads a word into a buffer, whatever it held before: the cursor is at the start and the whole
word is marked. -/
def reload (buffer : WordBuffer) (word : String) : WordBuffer :=
  { buffer with
    text := word.toList
    cursor := 0
    floor := 0
    sliceStart := 0
    sliceEnd := byteLength word.toList }

def load (word : String) : WordBuffer :=
  empty.reload word

def limit (buffer : WordBuffer) : Nat :=
  byteLength buffer.text

def word (buffer : WordBuffer) : String :=
  String.ofList buffer.text

/-- Moves the cursor to a position, or to the limit if that comes first. -/
def moveTo (buffer : WordBuffer) (position : Nat) : WordBuffer :=
  { buffer with cursor := min position buffer.limit }

/-- The number of bytes between the cursor and the limit. Backward rules remember this number
rather than the cursor because edits behind the cursor move the limit with the text. -/
def distanceToLimit (buffer : WordBuffer) : Nat :=
  buffer.limit - buffer.cursor

/-- Moves the cursor to a distance from the limit, but not below the floor. -/
def moveToDistance (buffer : WordBuffer) (distance : Nat) : WordBuffer :=
  { buffer with cursor := max (buffer.limit - distance) buffer.floor }

/-- Turns to backward scanning: what lies before the cursor becomes unreachable and scanning
starts from the end of the word. -/
def beginBackward (buffer : WordBuffer) : WordBuffer :=
  { buffer with floor := buffer.cursor, cursor := buffer.limit }

def markStart (buffer : WordBuffer) : WordBuffer :=
  { buffer with sliceStart := buffer.cursor }

def markEnd (buffer : WordBuffer) : WordBuffer :=
  { buffer with sliceEnd := buffer.cursor }

/-- A buffer is well formed when the cursor lies between the floor and the limit and both the
cursor and the floor lie between characters. -/
structure WellFormed (buffer : WordBuffer) : Prop where
  floor_le_cursor : buffer.floor ≤ buffer.cursor
  cursor_le_limit : buffer.cursor ≤ buffer.limit
  cursor_onBoundary : OnBoundary buffer.text buffer.cursor
  floor_onBoundary : OnBoundary buffer.text buffer.floor

theorem reload_eq_load (buffer : WordBuffer) (word : String) :
    buffer.reload word = load word := rfl

theorem load_wellFormed (word : String) : (load word).WellFormed where
  floor_le_cursor := Nat.le_refl 0
  cursor_le_limit := Nat.zero_le _
  cursor_onBoundary := by simp [OnBoundary, load, reload]
  floor_onBoundary := by simp [OnBoundary, load, reload]

end WordBuffer

end WordStem
