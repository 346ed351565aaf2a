import WordStem.Proofs.BufferParts

/-! # Scans of a buffer

A scan looks at the character next to the cursor and carries it from the part ahead to the part
behind, or the other way round. Every scan changes nothing but the cursor and keeps the buffer
well formed. -/
namespace WordStem.WordBuffer

variable {buffer moved : WordBuffer} {hidden behind ahead : List Char} {character : Char}
  {test : Char → Bool} {direction : Direction}

theorem advance_eq_withCursor (buffer : WordBuffer) (direction : Direction) (count : Nat) :
    buffer.advance direction count =
      { buffer with cursor := (buffer.advance direction count).cursor } := by
  cases direction <;> rfl

/-- A buffer moved within its word: only the cursor may differ, and it stays well formed. -/
structure MovesTo (buffer moved : WordBuffer) : Prop where
  eq_withCursor : moved = { buffer with cursor := moved.cursor }
  wellFormed : moved.WellFormed

namespace HasParts

theorem stepIf?_forward_nil (parts : buffer.HasParts hidden behind []) (test : Char → Bool) :
    buffer.stepIf? .forward test = none := by
  rw [stepIf?, parts.peek?_forward]
  rfl

theorem stepIf?_forward_cons (parts : buffer.HasParts hidden behind (character :: ahead))
    (test : Char → Bool) :
    buffer.stepIf? .forward test =
      if test character then some (buffer.advance .forward character.utf8Size) else none := by
  rw [stepIf?, parts.peek?_forward]
  rfl

theorem stepIf?_backward_nil (parts : buffer.HasParts hidden [] ahead) (test : Char → Bool) :
    buffer.stepIf? .backward test = none := by
  rw [stepIf?, parts.peek?_backward]
  rfl

theorem stepIf?_backward_concat (parts : buffer.HasParts hidden (behind ++ [character]) ahead)
    (test : Char → Bool) :
    buffer.stepIf? .backward test =
      if test character then some (buffer.advance .backward character.utf8Size) else none := by
  rw [stepIf?, parts.peek?_backward, List.getLast?_concat]

theorem advance_forward_cons (parts : buffer.HasParts hidden behind (character :: ahead)) :
    (buffer.advance .forward character.utf8Size).HasParts hidden (behind ++ [character])
      ahead := by
  have advanced : (buffer.advance .forward (byteLength [character])).HasParts hidden
      (behind ++ [character]) ahead := HasParts.advance_forward parts
  rwa [byteLength_cons, byteLength_nil, Nat.add_zero] at advanced

theorem advance_backward_concat
    (parts : buffer.HasParts hidden (behind ++ [character]) ahead) :
    (buffer.advance .backward character.utf8Size).HasParts hidden behind
      (character :: ahead) := by
  have advanced : (buffer.advance .backward (byteLength [character])).HasParts hidden behind
      ([character] ++ ahead) := HasParts.advance_backward parts
  rwa [byteLength_cons, byteLength_nil, Nat.add_zero] at advanced

/-- Seeking carries over the characters before the first one that passes the test. -/
theorem seek?_eq (parts : buffer.HasParts hidden behind ahead) (test : Char → Bool) :
    buffer.seek? test =
      let skipped := ahead.takeWhile fun character => !test character
      if skipped.length < ahead.length then
        some (buffer.advance .forward (byteLength skipped))
      else
        none := by
  rw [seek?, parts.cutAt?_cursor]

end HasParts

theorem MovesTo.refl (wellFormed : buffer.WellFormed) : buffer.MovesTo buffer := ⟨rfl, wellFormed⟩

theorem MovesTo.trans {further : WordBuffer} (first : buffer.MovesTo moved)
    (second : moved.MovesTo further) : buffer.MovesTo further := by
  refine ⟨?_, second.wellFormed⟩
  rw [second.eq_withCursor, first.eq_withCursor]

theorem movesTo_advance {count : Nat}
    (wellFormed : (buffer.advance direction count).WellFormed) :
    buffer.MovesTo (buffer.advance direction count) :=
  ⟨advance_eq_withCursor _ _ _, wellFormed⟩

/-- Stepping over one character stays within the word. -/
theorem WellFormed.stepIf? (wellFormed : buffer.WellFormed)
    (stepped : buffer.stepIf? direction test = some moved) : buffer.MovesTo moved := by
  obtain ⟨hidden, behind, ahead, parts⟩ := wellFormed_iff_exists_parts.mp wellFormed
  cases direction with
  | forward =>
    cases ahead with
    | nil =>
      rw [parts.stepIf?_forward_nil] at stepped
      cases stepped
    | cons character ahead =>
      rw [parts.stepIf?_forward_cons] at stepped
      obtain ⟨-, ⟨⟩⟩ := Option.ite_none_right_eq_some.mp stepped
      exact movesTo_advance parts.advance_forward_cons.wellFormed
  | backward =>
    obtain rfl | ⟨front, character, rfl⟩ := List.eq_nil_or_concat behind
    · rw [parts.stepIf?_backward_nil] at stepped
      cases stepped
    · rw [List.concat_eq_append] at parts
      rw [parts.stepIf?_backward_concat] at stepped
      obtain ⟨-, ⟨⟩⟩ := Option.ite_none_right_eq_some.mp stepped
      exact movesTo_advance parts.advance_backward_concat.wellFormed

theorem WellFormed.next? (wellFormed : buffer.WellFormed)
    (stepped : buffer.next? direction = some moved) : buffer.MovesTo moved :=
  wellFormed.stepIf? stepped

theorem WellFormed.hop? (wellFormed : buffer.WellFormed) {count : Nat}
    (hopped : buffer.hop? direction count = some moved) : buffer.MovesTo moved := by
  induction count generalizing buffer with
  | zero =>
    obtain rfl := Option.some.inj hopped
    exact .refl wellFormed
  | succ count ih =>
    rw [WordBuffer.hop?] at hopped
    cases stepped : buffer.next? direction with
    | none =>
      rw [stepped] at hopped
      cases hopped
    | some next =>
      rw [stepped] at hopped
      have first := wellFormed.next? stepped
      exact first.trans (ih first.wellFormed hopped)

theorem WellFormed.consume? (wellFormed : buffer.WellFormed) {literal : String}
    (consumed : buffer.consume? direction literal = some moved) : buffer.MovesTo moved := by
  obtain ⟨starts, ⟨⟩⟩ := Option.ite_none_right_eq_some.mp consumed
  rw [List.isPrefixOf_iff_prefix] at starts
  rw [length_utf8Bytes]
  exact movesTo_advance (wellFormed.advance starts)

end WordStem.WordBuffer
