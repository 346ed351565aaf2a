import WordStem.Proofs.BufferParts

/-! # Edits of a buffer

An edit between two boundaries replaces one part of the text. Its effect is described once for
the parts; that a buffer stays well formed whenever the edit begins at or after the floor
follows. -/
namespace WordStem

theorem carve?_eq_some_iff {text before inside after : List Char} {start stop : Nat} :
    carve? text start stop = some (before, inside, after) ↔
      text = before ++ inside ++ after ∧ byteLength before = start ∧
        byteLength before + byteLength inside = stop := by
  simp only [carve?, Option.bind_eq_bind, Option.bind_eq_some_iff, Prod.exists, Option.pure_def,
    Option.some.injEq, Prod.mk.injEq, cutAt?_eq_some_iff]
  constructor
  · rintro ⟨head, tail, ⟨rfl, stopEq⟩, front, middle, ⟨rfl, startEq⟩, rfl, rfl, rfl⟩
    rw [byteLength_append] at stopEq
    exact ⟨rfl, startEq, stopEq⟩
  · rintro ⟨rfl, startEq, stopEq⟩
    refine ⟨before ++ inside, after, ⟨rfl, ?_⟩, before, inside, ⟨rfl, startEq⟩, rfl, rfl, rfl⟩
    rw [byteLength_append, stopEq]

theorem onBoundary_append_left {left right : List Char} {offset : Nat}
    (inside : offset ≤ byteLength left) :
    OnBoundary (left ++ right) offset ↔ OnBoundary left offset := by
  simp only [onBoundary_iff_exists_split]
  constructor
  · rintro ⟨before, after, split, rfl⟩
    obtain ⟨rest, rfl⟩ : before <+: left :=
      isPrefix_of_byteLength_le ⟨after, split.symm⟩ (List.prefix_append left right) inside
    exact ⟨before, rest, rfl, rfl⟩
  · rintro ⟨before, after, rfl, rfl⟩
    exact ⟨before, after ++ right, List.append_assoc _ _ _, rfl⟩

theorem onBoundary_append_right {left right : List Char} {offset : Nat} :
    OnBoundary (left ++ right) (byteLength left + offset) ↔ OnBoundary right offset := by
  simp only [onBoundary_iff_exists_split]
  constructor
  · rintro ⟨before, after, split, lengthEq⟩
    obtain ⟨rest, rfl⟩ : left <+: before :=
      isPrefix_of_byteLength_le (List.prefix_append left right) ⟨after, split.symm⟩ (by omega)
    rw [List.append_assoc] at split
    rw [byteLength_append] at lengthEq
    exact ⟨rest, after, List.append_cancel_left split, by omega⟩
  · rintro ⟨before, after, rfl, rfl⟩
    exact ⟨left ++ before, after, (List.append_assoc _ _ _).symm, byteLength_append _ _⟩

theorem onBoundary_length (text : List Char) : OnBoundary text (byteLength text) :=
  onBoundary_iff_exists_split.mpr ⟨text, [], (List.append_nil text).symm, rfl⟩

namespace WordBuffer

variable {buffer edited : WordBuffer} {before inside after : List Char} {start stop : Nat}
  {replacement : String}

theorem growth_of_split :
    growth (byteLength before) (byteLength before + byteLength inside) replacement =
      byteLength replacement.toList - byteLength inside := by
  rw [growth]
  omega

theorem replaceText_of_split (textEq : buffer.text = before ++ inside ++ after)
    (startEq : byteLength before = start) (stopEq : byteLength before + byteLength inside = stop) :
    buffer.replaceText start stop replacement =
      .ok (growth start stop replacement, { buffer with
        text := before ++ replacement.toList ++ after
        cursor :=
          if stop ≤ buffer.cursor then shifted buffer.cursor start stop replacement
          else min buffer.cursor start }) := by
  rw [replaceText, carve?_eq_some_iff.mpr ⟨textEq, startEq, stopEq⟩]

theorem splice_of_split (textEq : buffer.text = before ++ inside ++ after)
    (startEq : byteLength before = start) (stopEq : byteLength before + byteLength inside = stop) :
    buffer.splice start stop replacement =
      .ok { buffer with
        text := before ++ replacement.toList ++ after
        cursor :=
          if stop ≤ buffer.cursor then shifted buffer.cursor start stop replacement
          else min buffer.cursor start } := by
  rw [splice, replaceText_of_split textEq startEq stopEq]
  rfl

theorem splice_of_carve?_eq_none (refused : carve? buffer.text start stop = none) :
    buffer.splice start stop replacement = .error (.faultySlice start stop buffer.limit) := by
  rw [splice, replaceText, refused]
  rfl

theorem exists_replaceSlice (replacement : String)
    (textEq : buffer.text = before ++ inside ++ after)
    (startEq : byteLength before = buffer.sliceStart)
    (stopEq : byteLength before + byteLength inside = buffer.sliceEnd) :
    ∃ edited, buffer.replaceSlice replacement = .ok edited ∧
      edited.text = before ++ replacement.toList ++ after ∧ edited.floor = buffer.floor :=
  ⟨_, splice_of_split textEq startEq stopEq, rfl, rfl⟩

/-- An edit that is not refused replaces one of three parts of the text. -/
theorem exists_split_of_splice (done : buffer.splice start stop replacement = .ok edited) :
    ∃ before inside after, buffer.text = before ++ inside ++ after ∧
      byteLength before = start ∧ byteLength before + byteLength inside = stop := by
  cases carved : carve? buffer.text start stop with
  | none =>
    rw [splice_of_carve?_eq_none carved] at done
    cases done
  | some parts =>
    obtain ⟨before, inside, after⟩ := parts
    exact ⟨before, inside, after, carve?_eq_some_iff.mp carved⟩

/-- A cursor behind the edit moves along with the text: the same part of the text lies between the
edit and the cursor, and the same part follows it. -/
theorem exists_split_of_shifted (textEq : buffer.text = before ++ inside ++ after)
    (cursorCut : OnBoundary buffer.text buffer.cursor)
    (behind : byteLength before + byteLength inside ≤ buffer.cursor) (replacement : String) :
    ∃ passed ahead, after = passed ++ ahead ∧
      buffer.cursor = byteLength (before ++ inside ++ passed) ∧
      shifted buffer.cursor (byteLength before) (byteLength before + byteLength inside)
        replacement = byteLength (before ++ replacement.toList ++ passed) := by
  obtain ⟨rest, restEq⟩ := Nat.exists_eq_add_of_le behind
  rw [textEq, restEq, ← byteLength_append, onBoundary_append_right] at cursorCut
  obtain ⟨passed, ahead, rfl, rfl⟩ := onBoundary_iff_exists_split.mp cursorCut
  refine ⟨passed, ahead, rfl, ?_, ?_⟩
  · rw [restEq, byteLength_append, byteLength_append]
  · simp only [shifted, restEq, byteLength_append]
    omega

/-- A cursor that is not behind the edit stays between two characters. -/
theorem onBoundary_min_cursor (textEq : buffer.text = before ++ inside ++ after)
    (cursorCut : OnBoundary buffer.text buffer.cursor) (others : List Char) :
    OnBoundary (before ++ others) (min buffer.cursor (byteLength before)) := by
  rw [onBoundary_append_left (Nat.min_le_right _ _)]
  rcases Nat.le_total buffer.cursor (byteLength before) with early | late
  · rw [Nat.min_eq_left early]
    rwa [textEq, List.append_assoc, onBoundary_append_left early] at cursorCut
  · rw [Nat.min_eq_right late]
    exact onBoundary_length before

/-- An edit that begins at or after the floor keeps the buffer well formed. -/
theorem WellFormed.splice (wellFormed : buffer.WellFormed) (above : buffer.floor ≤ start)
    (done : buffer.splice start stop replacement = .ok edited) : edited.WellFormed := by
  obtain ⟨before, inside, after, textEq, rfl, rfl⟩ := exists_split_of_splice done
  rw [splice_of_split textEq rfl rfl] at done
  obtain rfl := Except.ok.inj done
  obtain ⟨floorLe, -, cursorCut, floorCut⟩ := wellFormed
  have floorCutNew : OnBoundary (before ++ replacement.toList ++ after) buffer.floor := by
    rw [textEq, List.append_assoc, onBoundary_append_left above] at floorCut
    rwa [List.append_assoc, onBoundary_append_left above]
  by_cases behind : byteLength before + byteLength inside ≤ buffer.cursor
  · obtain ⟨passed, ahead, rfl, -, moved⟩ :=
      exists_split_of_shifted textEq cursorCut behind replacement
    have cursorCutNew : OnBoundary (before ++ replacement.toList ++ (passed ++ ahead))
        (byteLength (before ++ replacement.toList ++ passed)) :=
      onBoundary_iff_exists_split.mpr ⟨_, ahead, (List.append_assoc _ _ _).symm, rfl⟩
    refine ⟨?_, ?_, ?_, floorCutNew⟩
    all_goals simp only [if_pos behind, moved]
    · rw [byteLength_append, byteLength_append]
      omega
    · exact cursorCutNew.le_byteLength
    · exact cursorCutNew
  · have cursorCutNew := onBoundary_min_cursor textEq cursorCut (replacement.toList ++ after)
    rw [← List.append_assoc] at cursorCutNew
    refine ⟨?_, ?_, ?_, floorCutNew⟩
    all_goals simp only [if_neg behind]
    · exact Nat.le_min.mpr ⟨floorLe, above⟩
    · exact cursorCutNew.le_byteLength
    · exact cursorCutNew

end WordBuffer

end WordStem
