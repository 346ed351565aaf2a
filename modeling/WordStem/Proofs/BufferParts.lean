import WordStem.Proofs.Utf8Code
import WordStem.WordBufferEdit
import WordStem.WordBufferScan

/-! # The parts of a buffer

A well-formed buffer cuts its word into three parts: the text hidden before the floor, the text
behind the cursor that backward scanning may reach, and the text ahead of the cursor. Scans and
edits are described by what they do to these parts, so that the arithmetic of byte offsets is
done once, here. -/
namespace WordStem

namespace Direction

/-- The part of the text that is read from the cursor. -/
def choose (direction : Direction) (behind ahead : List Char) : List Char :=
  match direction with
  | forward => ahead
  | backward => behind

/-- Whether a text, read from the cursor, starts with a literal. -/
def starts (direction : Direction) (literal text : List Char) : Bool :=
  match direction with
  | forward => literal.isPrefixOf text
  | backward => literal.isSuffixOf text

theorem inReadingOrder_isPrefix_iff {direction : Direction} {literal text : List Char} :
    direction.inReadingOrder (utf8Bytes literal) <+: direction.inReadingOrder (utf8Bytes text) ↔
      direction.starts literal text := by
  cases direction with
  | forward => simp [inReadingOrder, starts, utf8Bytes_isPrefix_iff]
  | backward => simp [inReadingOrder, starts, utf8Bytes_isSuffix_iff]

end Direction

namespace WordBuffer

/-- The cursor and the floor of a buffer cut its word into three parts. -/
structure HasParts (buffer : WordBuffer) (hidden behind ahead : List Char) : Prop where
  text_eq : buffer.text = hidden ++ behind ++ ahead
  floor_eq : buffer.floor = byteLength hidden
  cursor_eq : buffer.cursor = byteLength hidden + byteLength behind

variable {buffer : WordBuffer} {hidden behind ahead : List Char}

@[simp] theorem advance_text (buffer : WordBuffer) (direction : Direction) (count : Nat) :
    (buffer.advance direction count).text = buffer.text := by
  cases direction <;> rfl

@[simp] theorem advance_floor (buffer : WordBuffer) (direction : Direction) (count : Nat) :
    (buffer.advance direction count).floor = buffer.floor := by
  cases direction <;> rfl

/-- A buffer is well formed exactly when it has parts. -/
theorem wellFormed_iff_exists_parts :
    buffer.WellFormed ↔ ∃ hidden behind ahead, buffer.HasParts hidden behind ahead := by
  constructor
  · rintro ⟨floorLe, -, cursorCut, floorCut⟩
    obtain ⟨before, ahead, split, cursorEq⟩ := onBoundary_iff_exists_split.mp cursorCut
    obtain ⟨hidden, after, otherSplit, floorEq⟩ := onBoundary_iff_exists_split.mp floorCut
    obtain ⟨behind, rfl⟩ : hidden <+: before :=
      isPrefix_of_byteLength_le ⟨after, otherSplit.symm⟩ ⟨ahead, split.symm⟩
        (by rwa [floorEq, cursorEq])
    exact ⟨hidden, behind, ahead, split, floorEq.symm, by rw [← cursorEq, byteLength_append]⟩
  · rintro ⟨hidden, behind, ahead, textEq, floorEq, cursorEq⟩
    refine ⟨by omega, ?_, ?_, ?_⟩
    · simp only [limit, textEq, byteLength_append, cursorEq]
      omega
    · exact onBoundary_iff_exists_split.mpr
        ⟨hidden ++ behind, ahead, textEq, by rw [byteLength_append, cursorEq]⟩
    · exact onBoundary_iff_exists_split.mpr
        ⟨hidden, behind ++ ahead, by rw [textEq, List.append_assoc], floorEq.symm⟩

theorem HasParts.wellFormed (parts : buffer.HasParts hidden behind ahead) : buffer.WellFormed :=
  wellFormed_iff_exists_parts.mpr ⟨hidden, behind, ahead, parts⟩

theorem load_hasParts (word : String) : (load word).HasParts [] [] word.toList :=
  ⟨rfl, rfl, rfl⟩

namespace HasParts

theorem limit_eq (parts : buffer.HasParts hidden behind ahead) :
    buffer.limit = byteLength hidden + byteLength behind + byteLength ahead := by
  rw [limit, parts.text_eq, byteLength_append, byteLength_append]

theorem cutAt?_cursor (parts : buffer.HasParts hidden behind ahead) :
    cutAt? buffer.text buffer.cursor = some (hidden ++ behind, ahead) :=
  cutAt?_eq_some_iff.mpr ⟨parts.text_eq, by rw [byteLength_append, parts.cursor_eq]⟩

/-- What can be read from the cursor are the bytes of the part on that side. -/
theorem view_eq (parts : buffer.HasParts hidden behind ahead) (direction : Direction) :
    buffer.view direction =
      direction.inReadingOrder (utf8Bytes (direction.choose behind ahead)) := by
  have cursorEq : buffer.cursor = byteLength (hidden ++ behind) := by
    rw [byteLength_append, parts.cursor_eq]
  cases direction with
  | forward =>
    simp only [view, Direction.inReadingOrder, Direction.choose]
    rw [parts.text_eq, cursorEq, drop_utf8Bytes]
  | backward =>
    have floorLe : buffer.floor ≤ buffer.cursor := by
      rw [parts.floor_eq, parts.cursor_eq]
      omega
    simp only [view, Direction.inReadingOrder, Direction.choose, if_pos floorLe]
    rw [parts.text_eq, cursorEq, take_utf8Bytes, parts.floor_eq, drop_utf8Bytes]

theorem peek?_forward (parts : buffer.HasParts hidden behind ahead) :
    buffer.peek? .forward = ahead.head? := by
  simp [peek?, parts.cutAt?_cursor]

theorem peek?_backward (parts : buffer.HasParts hidden behind ahead) :
    buffer.peek? .backward = behind.getLast? := by
  simp only [peek?, parts.cutAt?_cursor, Option.bind_some]
  obtain rfl | ⟨front, last, rfl⟩ := List.eq_nil_or_concat behind
  · have cursorEq := parts.cursor_eq
    rw [byteLength_nil, Nat.add_zero, ← parts.floor_eq] at cursorEq
    rw [if_neg (by omega)]
    rfl
  · rw [List.concat_eq_append] at parts ⊢
    have positive := last.utf8Size_pos
    have floorLt : buffer.floor < buffer.cursor := by
      rw [parts.floor_eq, parts.cursor_eq, byteLength_append, byteLength_cons]
      omega
    rw [if_pos floorLt, ← List.append_assoc, List.getLast?_concat, List.getLast?_concat]

theorem advance_forward {front : List Char}
    (parts : buffer.HasParts hidden behind (front ++ ahead)) :
    (buffer.advance .forward (byteLength front)).HasParts hidden (behind ++ front) ahead where
  text_eq := by simp [advance, parts.text_eq]
  floor_eq := parts.floor_eq
  cursor_eq := by
    simp only [advance, parts.cursor_eq, byteLength_append]
    omega

theorem advance_backward {back : List Char}
    (parts : buffer.HasParts hidden (behind ++ back) ahead) :
    (buffer.advance .backward (byteLength back)).HasParts hidden behind (back ++ ahead) where
  text_eq := by simp [advance, parts.text_eq]
  floor_eq := parts.floor_eq
  cursor_eq := by
    simp only [advance, parts.cursor_eq, byteLength_append]
    omega

theorem beginBackward (parts : buffer.HasParts hidden behind ahead) :
    buffer.beginBackward.HasParts (hidden ++ behind) ahead [] where
  text_eq := by simp [WordBuffer.beginBackward, parts.text_eq]
  floor_eq := by simp [WordBuffer.beginBackward, parts.cursor_eq]
  cursor_eq := by simp [WordBuffer.beginBackward, parts.limit_eq]

end HasParts

/-- Moving over a literal that can be read from the cursor leads to a boundary. -/
theorem WellFormed.advance (wellFormed : buffer.WellFormed) {direction : Direction}
    {literal : List Char}
    (starts : direction.inReadingOrder (utf8Bytes literal) <+: buffer.view direction) :
    (buffer.advance direction (byteLength literal)).WellFormed := by
  obtain ⟨hidden, behind, ahead, parts⟩ := wellFormed_iff_exists_parts.mp wellFormed
  rw [parts.view_eq, Direction.inReadingOrder_isPrefix_iff] at starts
  cases direction with
  | forward =>
    obtain ⟨rest, rfl⟩ := List.isPrefixOf_iff_prefix.mp starts
    exact parts.advance_forward.wellFormed
  | backward =>
    obtain ⟨rest, rfl⟩ := List.isSuffixOf_iff_suffix.mp starts
    exact parts.advance_backward.wellFormed

/-- Only the text, the floor and the cursor matter for a buffer to be well formed. -/
theorem WellFormed.congr {other : WordBuffer} (wellFormed : buffer.WellFormed)
    (textEq : other.text = buffer.text) (floorEq : other.floor = buffer.floor)
    (cursorEq : other.cursor = buffer.cursor) : other.WellFormed := by
  obtain ⟨hidden, behind, ahead, parts⟩ := wellFormed_iff_exists_parts.mp wellFormed
  exact HasParts.wellFormed ⟨textEq.trans parts.text_eq, floorEq.trans parts.floor_eq,
    cursorEq.trans parts.cursor_eq⟩

end WordBuffer

end WordStem
