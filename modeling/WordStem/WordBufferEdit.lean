import WordStem.Defect
import WordStem.WordBuffer

/-! # Editing a word

Every edit replaces the text between two positions. An edit whose positions do not delimit a
slice of the word is refused as a defect and changes nothing. The cursor follows the text: behind
the edit it keeps its distance to the limit, inside the edit it falls back to the start. -/
namespace WordStem.WordBuffer

/-- The change in length that a replacement between two positions brings. -/
def growth (start stop : Nat) (replacement : String) : Int :=
  (byteLength replacement.toList : Int) - ((stop : Int) - (start : Int))

/-- Where a position behind the edited slice ends up; positions do not go below zero. -/
def shifted (position start stop : Nat) (replacement : String) : Nat :=
  position + byteLength replacement.toList - (stop - start)

/-- Replaces the text between two positions and answers the change in length. -/
def replaceText (buffer : WordBuffer) (start stop : Nat) (replacement : String) :
    Except Defect (Int × WordBuffer) :=
  match carve? buffer.text start stop with
  | none => .error (.faultySlice start stop buffer.limit)
  | some (before, _, after) =>
    .ok (growth start stop replacement, { buffer with
      text := before ++ replacement.toList ++ after
      cursor :=
        if stop ≤ buffer.cursor then shifted buffer.cursor start stop replacement
        else min buffer.cursor start })

/-- Replaces the text between two positions, whatever comes of its length. -/
def splice (buffer : WordBuffer) (start stop : Nat) (replacement : String) :
    Except Defect WordBuffer :=
  (buffer.replaceText start stop replacement).map Prod.snd

/-- Replaces the marked slice, leaving the marks where they are. -/
def replaceSlice (buffer : WordBuffer) (replacement : String) : Except Defect WordBuffer :=
  buffer.splice buffer.sliceStart buffer.sliceEnd replacement

def deleteSlice (buffer : WordBuffer) : Except Defect WordBuffer :=
  buffer.replaceSlice ""

def slice (buffer : WordBuffer) : Except Defect String :=
  match carve? buffer.text buffer.sliceStart buffer.sliceEnd with
  | none => .error (.faultySlice buffer.sliceStart buffer.sliceEnd buffer.limit)
  | some (_, inside, _) => .ok (String.ofList inside)

/-- Replaces the text between two positions and moves the marks that lie at or after the start of
the edit along with the text. -/
def insert (buffer : WordBuffer) (start stop : Nat) (replacement : String) :
    Except Defect WordBuffer :=
  match buffer.splice start stop replacement with
  | .error defect => .error defect
  | .ok edited =>
    let follow (mark : Nat) : Nat :=
      if start ≤ mark then shifted mark start stop replacement else mark
    .ok { edited with
      sliceStart := follow buffer.sliceStart
      sliceEnd := follow buffer.sliceEnd }

end WordStem.WordBuffer
