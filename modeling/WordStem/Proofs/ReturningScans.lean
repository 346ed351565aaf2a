import Mathlib.Logic.Basic
import WordStem.Proofs.ByteBuffer

/-! # Scans that return

From the cursor a word is read in two directions. A scan takes characters from the front of what
lies in its direction and puts them, one after the other, in front of what lies in the opposite
direction, where the opposite scan finds them again. Main statement: `scans_return`, that a hop
takes exactly as many characters as it is asked for or none, that every scan which succeeds is
undone by the same scan in the opposite direction, that a scan and its complement share the
characters between them, and that all this holds of the bytes in memory. -/
namespace WordStem

theorem byteLength_reverse (text : List Char) : byteLength text.reverse = byteLength text := by
  induction text with
  | nil => rfl
  | cons character rest ih =>
    rw [List.reverse_cons, byteLength_append, ih, byteLength_cons, byteLength_cons,
      byteLength_nil, Nat.add_zero, Nat.add_comm]

namespace WordBuffer

/-- The characters that can be read from the cursor, the nearest first: forward up to the limit,
backward down to the floor. -/
def unread (buffer : WordBuffer) : Direction → List Char
  | .forward => ((cutAt? buffer.text buffer.cursor).getD ([], [])).2
  | .backward => ((carve? buffer.text buffer.floor buffer.cursor).getD ([], [], [])).2.1.reverse

/-- Reading in a direction meets the characters that are coming, and reading in the opposite
direction meets those that are passed, both the nearest first. -/
def Meets (buffer : WordBuffer) (coming passed : List Char) : Direction → Prop
  | .forward => ∃ hidden, buffer.HasParts hidden passed.reverse coming
  | .backward => ∃ hidden, buffer.HasParts hidden coming.reverse passed

variable {buffer moved : WordBuffer} {direction : Direction} {coming passed front : List Char}
  {test : Char → Bool}

theorem HasParts.unread_forward {hidden behind ahead : List Char}
    (parts : buffer.HasParts hidden behind ahead) : buffer.unread .forward = ahead := by
  rw [unread, parts.cutAt?_cursor, Option.getD_some]

theorem HasParts.unread_backward {hidden behind ahead : List Char}
    (parts : buffer.HasParts hidden behind ahead) : buffer.unread .backward = behind.reverse := by
  have carved : carve? buffer.text buffer.floor buffer.cursor = some (hidden, behind, ahead) :=
    carve?_eq_some_iff.mpr ⟨parts.text_eq, parts.floor_eq.symm, parts.cursor_eq.symm⟩
  rw [unread, carved, Option.getD_some]

theorem WellFormed.exists_meets (wellFormed : buffer.WellFormed) (direction : Direction) :
    ∃ passed, buffer.Meets (buffer.unread direction) passed direction := by
  obtain ⟨hidden, behind, ahead, parts⟩ := wellFormed_iff_exists_parts.mp wellFormed
  cases direction with
  | forward =>
    refine ⟨behind.reverse, hidden, ?_⟩
    rwa [parts.unread_forward, List.reverse_reverse]
  | backward =>
    refine ⟨ahead, hidden, ?_⟩
    rwa [parts.unread_backward, List.reverse_reverse]

/-! ## Moving over what is met -/

theorem advance_advance (buffer : WordBuffer) (direction : Direction) (first second : Nat) :
    (buffer.advance direction first).advance direction second =
      buffer.advance direction (first + second) := by
  cases direction with
  | forward => simp only [advance, Nat.add_assoc]
  | backward => simp only [advance, Nat.sub_sub]

namespace Meets

theorem wellFormed (meets : buffer.Meets coming passed direction) : buffer.WellFormed := by
  cases direction with
  | forward => exact meets.choose_spec.wellFormed
  | backward => exact meets.choose_spec.wellFormed

theorem opposite (meets : buffer.Meets coming passed direction) :
    buffer.Meets passed coming direction.opposite := by
  cases direction <;> exact meets

theorem peek?_eq (meets : buffer.Meets coming passed direction) :
    buffer.peek? direction = coming.head? := by
  cases direction with
  | forward =>
    obtain ⟨hidden, parts⟩ := meets
    exact parts.peek?_forward
  | backward =>
    obtain ⟨hidden, parts⟩ := meets
    rw [parts.peek?_backward, List.getLast?_reverse]

/-- The characters that are moved over change sides, and so their order. -/
theorem advance (meets : buffer.Meets (front ++ coming) passed direction) :
    (buffer.advance direction (byteLength front)).Meets coming (front.reverse ++ passed)
      direction := by
  cases direction with
  | forward =>
    obtain ⟨hidden, parts⟩ := meets
    refine ⟨hidden, ?_⟩
    rw [List.reverse_append, List.reverse_reverse]
    exact parts.advance_forward
  | backward =>
    obtain ⟨hidden, parts⟩ := meets
    rw [List.reverse_append] at parts
    refine ⟨hidden, ?_⟩
    rw [← byteLength_reverse front]
    exact parts.advance_backward

/-- Moving back over the same characters leads to where the move began. -/
theorem advance_back (meets : buffer.Meets (front ++ coming) passed direction) :
    (buffer.advance direction (byteLength front)).advance direction.opposite (byteLength front) =
      buffer := by
  cases direction with
  | forward => simp only [WordBuffer.advance, Direction.opposite, Nat.add_sub_cancel]
  | backward =>
    obtain ⟨hidden, parts⟩ := meets
    have enough : byteLength front ≤ buffer.cursor := by
      rw [parts.cursor_eq, byteLength_reverse, byteLength_append]
      omega
    simp only [WordBuffer.advance, Direction.opposite, Nat.sub_add_cancel enough]

/-! ## One character -/

theorem stepIf?_nil (meets : buffer.Meets [] passed direction) (test : Char → Bool) :
    buffer.stepIf? direction test = none := by
  rw [stepIf?, meets.peek?_eq]
  rfl

theorem stepIf?_cons {character : Char}
    (meets : buffer.Meets (character :: coming) passed direction) (test : Char → Bool) :
    buffer.stepIf? direction test =
      if test character then some (buffer.advance direction (byteLength [character]))
      else none := by
  rw [stepIf?, meets.peek?_eq]
  rfl

theorem advance_cons {character : Char}
    (meets : buffer.Meets (character :: coming) passed direction) :
    (buffer.advance direction (byteLength [character])).Meets coming (character :: passed)
      direction := by
  have begins : buffer.Meets ([character] ++ coming) passed direction := meets
  exact begins.advance

/-! ## Several characters -/

theorem hop?_eq (meets : buffer.Meets coming passed direction) (count : Nat) :
    buffer.hop? direction count =
      if count ≤ coming.length then
        some (buffer.advance direction (byteLength (coming.take count)))
      else none := by
  induction count generalizing buffer coming passed with
  | zero => cases direction <;> rfl
  | succ count ih =>
    rw [hop?, next?]
    cases coming with
    | nil =>
      rw [meets.stepIf?_nil]
      rfl
    | cons character coming =>
      rw [meets.stepIf?_cons, if_pos rfl]
      refine (ih meets.advance_cons).trans ?_
      simp only [advance_advance, List.length_cons, List.take_succ_cons, Nat.add_le_add_iff_right,
        byteLength_cons, byteLength_nil, Nat.add_zero]

/-! ## A literal -/

theorem view_eq (meets : buffer.Meets coming passed direction) :
    buffer.view direction =
      direction.inReadingOrder (utf8Bytes (direction.inReadingOrder coming)) := by
  cases direction with
  | forward =>
    obtain ⟨hidden, parts⟩ := meets
    exact parts.view_eq .forward
  | backward =>
    obtain ⟨hidden, parts⟩ := meets
    exact parts.view_eq .backward

theorem consume?_eq (meets : buffer.Meets coming passed direction) (literal : String) :
    buffer.consume? direction literal =
      if direction.inReadingOrder literal.toList <+: coming then
        some (buffer.advance direction (byteLength literal.toList))
      else none := by
  have begins : (direction.inReadingOrder (utf8Bytes literal.toList)).isPrefixOf
      (buffer.view direction) = true ↔ direction.inReadingOrder literal.toList <+: coming := by
    rw [meets.view_eq, List.isPrefixOf_iff_prefix, Direction.inReadingOrder_isPrefix_iff]
    cases direction with
    | forward => exact List.isPrefixOf_iff_prefix
    | backward =>
      rw [Direction.starts, List.isSuffixOf_iff_suffix]
      simp only [Direction.inReadingOrder]
      rw [← List.reverse_suffix, List.reverse_reverse]
  rw [consume?]
  simp only [begins, length_utf8Bytes]

end Meets

/-! ## Returning -/

/-- Whatever a scan takes from the front is in front of the opposite direction after it. -/
theorem WellFormed.stepIf?_returns (wellFormed : buffer.WellFormed)
    (stepped : buffer.stepIf? direction test = some moved) :
    moved.stepIf? direction.opposite test = some buffer := by
  obtain ⟨passed, meets⟩ := wellFormed.exists_meets direction
  cases comingEq : buffer.unread direction with
  | nil =>
    rw [comingEq] at meets
    rw [meets.stepIf?_nil] at stepped
    cases stepped
  | cons character coming =>
    rw [comingEq] at meets
    rw [meets.stepIf?_cons] at stepped
    obtain ⟨passes, ⟨⟩⟩ := Option.ite_none_right_eq_some.mp stepped
    rw [meets.advance_cons.opposite.stepIf?_cons, if_pos passes]
    have begins : buffer.Meets ([character] ++ coming) passed direction := meets
    exact congrArg some begins.advance_back

theorem WellFormed.hop?_returns (wellFormed : buffer.WellFormed) {count : Nat}
    (hopped : buffer.hop? direction count = some moved) :
    moved.hop? direction.opposite count = some buffer := by
  obtain ⟨passed, meets⟩ := wellFormed.exists_meets direction
  rw [meets.hop?_eq] at hopped
  obtain ⟨enough, ⟨⟩⟩ := Option.ite_none_right_eq_some.mp hopped
  rw [← List.take_append_drop count (buffer.unread direction)] at meets
  have taken : ((buffer.unread direction).take count).reverse.length = count := by
    rw [List.length_reverse, List.length_take, Nat.min_eq_left enough]
  have again : (((buffer.unread direction).take count).reverse ++ passed).take count =
      ((buffer.unread direction).take count).reverse := List.take_left' taken
  rw [meets.advance.opposite.hop?_eq, if_pos (by simp [taken]), again, byteLength_reverse,
    meets.advance_back]

theorem WellFormed.consume?_returns (wellFormed : buffer.WellFormed) {literal : String}
    (consumed : buffer.consume? direction literal = some moved) :
    moved.consume? direction.opposite literal = some buffer := by
  obtain ⟨passed, meets⟩ := wellFormed.exists_meets direction
  rw [meets.consume?_eq] at consumed
  obtain ⟨⟨coming, split⟩, ⟨⟩⟩ := Option.ite_none_right_eq_some.mp consumed
  rw [← split] at meets
  have lengthEq : byteLength (direction.inReadingOrder literal.toList) =
      byteLength literal.toList := by
    cases direction with
    | forward => rfl
    | backward => exact byteLength_reverse _
  have turned : (direction.inReadingOrder literal.toList).reverse =
      direction.opposite.inReadingOrder literal.toList := by
    cases direction with
    | forward => rfl
    | backward => exact List.reverse_reverse _
  have after := meets.advance.opposite
  have back := meets.advance_back
  rw [lengthEq] at after back
  rw [turned] at after
  rw [after.consume?_eq, if_pos (List.prefix_append _ _), back]

end WordBuffer

/-! ## All scans -/

/-- What can be asked of a buffer in either direction. -/
inductive Scan where
  | next
  | hop (count : Nat)
  | inSet (set : CharacterSet)
  | outSet (set : CharacterSet)
  | inRange (lowest highest : Char)
  | outRange (lowest highest : Char)
  | consume (literal : String)

namespace Scan

/-- The buffer after a scan, if the scan succeeds. -/
def move? (buffer : WordBuffer) (direction : Direction) : Scan → Option WordBuffer
  | next => buffer.next? direction
  | hop count => buffer.hop? direction count
  | inSet set => buffer.inSet? direction set
  | outSet set => buffer.outSet? direction set
  | inRange lowest highest => buffer.inRange? direction lowest highest
  | outRange lowest highest => buffer.outRange? direction lowest highest
  | consume literal => buffer.consume? direction literal

/-- Whether a scan of the bytes in memory succeeds, and the memory after it, if nothing faults. -/
def perform? (memory : ByteBuffer) (direction : Direction) : Scan → Option (Bool × ByteBuffer)
  | next => memory.stepIf? direction fun _ => true
  | hop count => memory.hop? direction memory.cursor count
  | inSet set => memory.stepIf? direction set.contains
  | outSet set => memory.stepIf? direction fun character => !set.contains character
  | inRange lowest highest =>
    memory.stepIf? direction fun character => lowest ≤ character && character ≤ highest
  | outRange lowest highest =>
    memory.stepIf? direction fun character => !(lowest ≤ character && character ≤ highest)
  | consume literal => memory.consume? direction (utf8Bytes literal.toList)

/-- A scan over one character and the scan over the characters that it does not take. -/
inductive Complementary : Scan → Scan → Prop
  | set (set : CharacterSet) : Complementary (inSet set) (outSet set)
  | range (lowest highest : Char) : Complementary (inRange lowest highest) (outRange lowest highest)

variable {buffer moved : WordBuffer} {direction : Direction}

theorem move?_movesTo (wellFormed : buffer.WellFormed) {scan : Scan}
    (succeeded : scan.move? buffer direction = some moved) : buffer.MovesTo moved := by
  cases scan with
  | next => exact wellFormed.next? succeeded
  | hop count => exact wellFormed.hop? succeeded
  | inSet set => exact wellFormed.stepIf? succeeded
  | outSet set => exact wellFormed.stepIf? succeeded
  | inRange lowest highest => exact wellFormed.stepIf? succeeded
  | outRange lowest highest => exact wellFormed.stepIf? succeeded
  | consume literal => exact wellFormed.consume? succeeded

theorem move?_returns (wellFormed : buffer.WellFormed) {scan : Scan}
    (succeeded : scan.move? buffer direction = some moved) :
    scan.move? moved direction.opposite = some buffer := by
  cases scan with
  | next => exact wellFormed.stepIf?_returns succeeded
  | hop count => exact wellFormed.hop?_returns succeeded
  | inSet set => exact wellFormed.stepIf?_returns succeeded
  | outSet set => exact wellFormed.stepIf?_returns succeeded
  | inRange lowest highest => exact wellFormed.stepIf?_returns succeeded
  | outRange lowest highest => exact wellFormed.stepIf?_returns succeeded
  | consume literal => exact wellFormed.consume?_returns succeeded

theorem perform?_inMemory (wellFormed : buffer.WellFormed) (direction : Direction) (scan : Scan) :
    scan.perform? buffer.inMemory direction =
      some (ByteBuffer.scanned buffer (scan.move? buffer direction)) := by
  cases scan with
  | next => exact ByteBuffer.stepIf?_inMemory wellFormed direction _
  | hop count =>
    rw [perform?, ByteBuffer.hop?_inMemory wellFormed, move?]
    cases buffer.hop? direction count <;> rfl
  | inSet set => exact ByteBuffer.stepIf?_inMemory wellFormed direction _
  | outSet set => exact ByteBuffer.stepIf?_inMemory wellFormed direction _
  | inRange lowest highest => exact ByteBuffer.stepIf?_inMemory wellFormed direction _
  | outRange lowest highest => exact ByteBuffer.stepIf?_inMemory wellFormed direction _
  | consume literal => exact ByteBuffer.consume?_inMemory wellFormed direction literal

/-- Complementary scans step over a character that passes a test, and one that fails it. -/
theorem Complementary.exists_test {one other : Scan} (complementary : Complementary one other) :
    ∃ test : Char → Bool, ∀ buffer direction,
      one.move? buffer direction = buffer.stepIf? direction test ∧
        other.move? buffer direction = buffer.stepIf? direction fun character =>
          !test character := by
  cases complementary with
  | set set => exact ⟨set.contains, fun _ _ => ⟨rfl, rfl⟩⟩
  | range lowest highest =>
    exact ⟨fun character => lowest ≤ character && character ≤ highest, fun _ _ => ⟨rfl, rfl⟩⟩

/-- Complementary scans share what is next to the cursor: one of them takes it. -/
theorem Complementary.isSome_ne (wellFormed : buffer.WellFormed) {one other : Scan}
    (complementary : Complementary one other) (remains : buffer.unread direction ≠ []) :
    (one.move? buffer direction).isSome ≠ (other.move? buffer direction).isSome := by
  obtain ⟨test, tests⟩ := complementary.exists_test
  obtain ⟨passed, meets⟩ := wellFormed.exists_meets direction
  obtain ⟨character, coming, comingEq⟩ := List.exists_cons_of_ne_nil remains
  rw [comingEq] at meets
  rw [(tests buffer direction).1, (tests buffer direction).2, meets.stepIf?_cons,
    meets.stepIf?_cons]
  cases test character <;> simp

theorem Complementary.eq_none (wellFormed : buffer.WellFormed) {one other : Scan}
    (complementary : Complementary one other) (ended : buffer.unread direction = []) :
    one.move? buffer direction = none ∧ other.move? buffer direction = none := by
  obtain ⟨test, tests⟩ := complementary.exists_test
  obtain ⟨passed, meets⟩ := wellFormed.exists_meets direction
  rw [ended] at meets
  rw [(tests buffer direction).1, (tests buffer direction).2]
  exact ⟨meets.stepIf?_nil _, meets.stepIf?_nil _⟩

/-- The scans of a well-formed buffer. A hop takes the nearest characters, as many as it is asked
for, or fails when fewer remain; a scan that succeeds is undone by the same scan in the opposite
direction; of two complementary scans exactly one succeeds while a character remains, and none
afterwards. In memory no scan faults: one that succeeds leads to the bytes of the moved buffer, one
that fails leaves memory as it is, and the opposite scan restores what a scan has moved. -/
theorem scans_return (wellFormed : buffer.WellFormed) (direction : Direction) :
    (∀ count, buffer.hop? direction count =
      if count ≤ (buffer.unread direction).length then
        some (buffer.advance direction (byteLength ((buffer.unread direction).take count)))
      else none) ∧
    (∀ scan moved, move? buffer direction scan = some moved →
      moved.WellFormed ∧ move? moved direction.opposite scan = some buffer) ∧
    (∀ one other, Complementary one other →
      (buffer.unread direction ≠ [] →
        (one.move? buffer direction).isSome ≠ (other.move? buffer direction).isSome) ∧
      (buffer.unread direction = [] →
        one.move? buffer direction = none ∧ other.move? buffer direction = none)) ∧
    ∀ scan,
      perform? buffer.inMemory direction scan =
        some (match move? buffer direction scan with
          | some moved => (true, moved.inMemory)
          | none => (false, buffer.inMemory)) ∧
      ∀ memory, perform? buffer.inMemory direction scan = some (true, memory) →
        perform? memory direction.opposite scan = some (true, buffer.inMemory) := by
  obtain ⟨passed, meets⟩ := wellFormed.exists_meets direction
  refine ⟨meets.hop?_eq, ?_, ?_, ?_⟩
  · intro scan moved succeeded
    exact ⟨(move?_movesTo wellFormed succeeded).wellFormed, move?_returns wellFormed succeeded⟩
  · intro one other complementary
    exact ⟨complementary.isSome_ne wellFormed, complementary.eq_none wellFormed⟩
  · intro scan
    have performed := perform?_inMemory wellFormed direction scan
    cases outcome : scan.move? buffer direction with
    | none =>
      rw [outcome] at performed
      refine ⟨performed, fun memory succeeded => ?_⟩
      rw [performed] at succeeded
      cases succeeded
    | some moved =>
      rw [outcome] at performed
      refine ⟨performed, fun memory succeeded => ?_⟩
      rw [performed] at succeeded
      obtain rfl : moved.inMemory = memory := congrArg Prod.snd (Option.some.inj succeeded)
      have moves := move?_movesTo wellFormed outcome
      rw [perform?_inMemory moves.wellFormed, move?_returns wellFormed outcome]
      rfl

/-- Behind the fourth character of a word, which takes two bytes; the first one is hidden. -/
def withinWord : WordBuffer :=
  { WordBuffer.load "erdők" with cursor := 5, floor := 1 }

theorem scans_return_withinWord :
    withinWord.WellFormed ∧ withinWord.hop? .forward 2 = none ∧
      withinWord.hop? .backward 2 = some { withinWord with cursor := 2 } ∧
      ({ withinWord with cursor := 2 } : WordBuffer).hop? .forward 2 = some withinWord := by
  have wellFormed : withinWord.WellFormed :=
    ⟨by decide, by decide +kernel, by decide +kernel, by decide +kernel⟩
  have hopped : withinWord.hop? .backward 2 = some { withinWord with cursor := 2 } := by
    decide +kernel
  obtain ⟨hops, -⟩ := scans_return wellFormed .forward
  obtain ⟨-, returns, -⟩ := scans_return wellFormed .backward
  refine ⟨wellFormed, ?_, hopped, (returns (hop 2) _ hopped).2⟩
  rw [hops, if_neg (by decide +kernel)]

end Scan

end WordStem
