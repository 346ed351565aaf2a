import WordStem.Proofs.BufferEdits
import WordStem.Proofs.BufferScans

/-! # The buffer in memory

In memory the buffer is an array of bytes with a stored limit. Every operation on it subtracts,
reads and slices under the bounds that the machine checks: a difference must not fall below zero,
a slice must lie within the bytes, and a slice of text must begin and end between characters. An
operation that breaks one of these has no result here. Each operation is shown to have a result on
a well-formed buffer, and the result is what the operation on texts answers. -/
namespace WordStem

/-- The buffer as it lies in memory. -/
structure ByteBuffer where
  bytes : List UInt8
  limit : Nat
  cursor : Nat
  floor : Nat
  sliceStart : Nat
  sliceEnd : Nat

namespace ByteBuffer

/-! ## Checked accesses -/

/-- A difference that must not fall below zero. -/
def subtract? (left right : Nat) : Option Nat :=
  if right ≤ left then some (left - right) else none

/-- Whether an offset is the end of the bytes or the place of a first byte of a character. -/
def isBoundary (bytes : List UInt8) (offset : Nat) : Bool :=
  offset == 0 || offset == bytes.length || bytes[offset]?.any fun byte => byte.IsUTF8FirstByte

def bytesBetween? (bytes : List UInt8) (start stop : Nat) : Option (List UInt8) :=
  if start ≤ stop ∧ stop ≤ bytes.length then some ((bytes.take stop).drop start) else none

def decode? (bytes : List UInt8) : Option (List Char) :=
  bytes.toByteArray.utf8Decode?.map Array.toList

/-- The text between two offsets. -/
def textBetween? (bytes : List UInt8) (start stop : Nat) : Option (List Char) :=
  if isBoundary bytes start ∧ isBoundary bytes stop then
    (bytesBetween? bytes start stop).bind decode?
  else
    none

/-! ## Operations -/

def load (bytes : List UInt8) : ByteBuffer where
  bytes := bytes
  limit := bytes.length
  cursor := 0
  floor := 0
  sliceStart := 0
  sliceEnd := bytes.length

def word? (memory : ByteBuffer) : Option (List Char) :=
  textBetween? memory.bytes 0 memory.limit

def distanceToLimit? (memory : ByteBuffer) : Option Nat :=
  subtract? memory.limit memory.cursor

def peek? (memory : ByteBuffer) : Direction → Option (Option Char)
  | .forward => (textBetween? memory.bytes memory.cursor memory.limit).map List.head?
  | .backward => (textBetween? memory.bytes memory.floor memory.cursor).map List.getLast?

def advance? (memory : ByteBuffer) (direction : Direction) (count : Nat) : Option ByteBuffer :=
  match direction with
  | .forward => some { memory with cursor := memory.cursor + count }
  | .backward => (subtract? memory.cursor count).map fun cursor => { memory with cursor }

/-- Steps over one character that passes a test, answering whether there was one. -/
def stepIf? (memory : ByteBuffer) (direction : Direction) (test : Char → Bool) :
    Option (Bool × ByteBuffer) := do
  match ← memory.peek? direction with
  | some character =>
    if test character then
      return (true, ← memory.advance? direction character.utf8Size)
    else
      return (false, memory)
  | none => return (false, memory)

/-- Steps over a number of characters; if fewer remain, the cursor goes back to a start. -/
def hop? (memory : ByteBuffer) (direction : Direction) (start : Nat) :
    Nat → Option (Bool × ByteBuffer)
  | 0 => some (true, memory)
  | count + 1 => do
    let (stepped, next) ← memory.stepIf? direction fun _ => true
    if stepped then
      next.hop? direction start count
    else
      return (false, { memory with cursor := start })

/-- The bytes that can be read from the cursor, in the order of the text. -/
def readable? (memory : ByteBuffer) : Direction → Option (List UInt8)
  | .forward => bytesBetween? memory.bytes memory.cursor memory.limit
  | .backward => bytesBetween? memory.bytes memory.floor memory.cursor

/-- Whether readable bytes continue with a literal. -/
def continues (direction : Direction) (literal readable : List UInt8) : Bool :=
  match direction with
  | .forward => literal.isPrefixOf readable
  | .backward => literal.isSuffixOf readable

/-- Steps over a literal that the word continues with, answering whether it does. -/
def consume? (memory : ByteBuffer) (direction : Direction) (literal : List UInt8) :
    Option (Bool × ByteBuffer) := do
  if continues direction literal (← memory.readable? direction) then
    return (true, ← memory.advance? direction literal.length)
  else
    return (false, memory)

/-- Moves the cursor to a position, which must not lie past the limit. -/
def moveTo? (memory : ByteBuffer) (position : Nat) : Option ByteBuffer :=
  if position ≤ memory.limit then some { memory with cursor := position } else none

def moveToDistance (memory : ByteBuffer) (distance : Nat) : ByteBuffer :=
  { memory with cursor := max (memory.limit - distance) memory.floor }

def beginBackward (memory : ByteBuffer) : ByteBuffer :=
  { memory with floor := memory.cursor, cursor := memory.limit }

def markStart (memory : ByteBuffer) : ByteBuffer :=
  { memory with sliceStart := memory.cursor }

def markEnd (memory : ByteBuffer) : ByteBuffer :=
  { memory with sliceEnd := memory.cursor }

/-- Whether two offsets delimit a slice of the word. -/
def delimits (memory : ByteBuffer) (start stop : Nat) : Bool :=
  start ≤ stop && stop ≤ memory.limit && isBoundary memory.bytes start &&
    isBoundary memory.bytes stop

/-- Replaces the text between two positions and answers the change in length; positions that delimit
no slice are refused. -/
def replaceText? (memory : ByteBuffer) (start stop : Nat) (replacement : List UInt8) :
    Option (Except Defect (Int × ByteBuffer)) :=
  if memory.delimits start stop then do
    let removed ← subtract? stop start
    let _ ← textBetween? memory.bytes start stop
    return .ok ((replacement.length : Int) - removed, { memory with
      bytes := memory.bytes.take start ++ replacement ++ memory.bytes.drop stop
      limit := memory.limit + replacement.length - removed
      cursor :=
        if stop ≤ memory.cursor then memory.cursor + replacement.length - removed
        else if start < memory.cursor then start
        else memory.cursor })
  else
    return .error (.faultySlice start stop memory.limit)

def splice? (memory : ByteBuffer) (start stop : Nat) (replacement : List UInt8) :
    Option (Except Defect ByteBuffer) :=
  (memory.replaceText? start stop replacement).map (·.map Prod.snd)

def replaceSlice? (memory : ByteBuffer) (replacement : List UInt8) :
    Option (Except Defect ByteBuffer) :=
  memory.splice? memory.sliceStart memory.sliceEnd replacement

def slice? (memory : ByteBuffer) : Option (Except Defect (List Char)) :=
  if memory.delimits memory.sliceStart memory.sliceEnd then
    (textBetween? memory.bytes memory.sliceStart memory.sliceEnd).map .ok
  else
    return .error (.faultySlice memory.sliceStart memory.sliceEnd memory.limit)

/-- Replaces the text between two positions and moves the marks along with the text. -/
def insert? (memory : ByteBuffer) (start stop : Nat) (replacement : List UInt8) :
    Option (Except Defect ByteBuffer) := do
  match ← memory.splice? start stop replacement with
  | .error defect => return .error defect
  | .ok edited =>
    let removed ← subtract? stop start
    let follow (mark : Nat) : Nat :=
      if start ≤ mark then mark + replacement.length - removed else mark
    return .ok { edited with
      sliceStart := follow memory.sliceStart
      sliceEnd := follow memory.sliceEnd }

/-! ## The image of a buffer in memory -/

end ByteBuffer

/-- The image of a buffer in memory. -/
def WordBuffer.inMemory (buffer : WordBuffer) : ByteBuffer where
  bytes := utf8Bytes buffer.text
  limit := buffer.limit
  cursor := buffer.cursor
  floor := buffer.floor
  sliceStart := buffer.sliceStart
  sliceEnd := buffer.sliceEnd

namespace ByteBuffer

theorem decode?_utf8Bytes (text : List Char) : decode? (utf8Bytes text) = some text := by
  have decoded := List.utf8Decode?_utf8Encode (l := text)
  rw [List.utf8Encode] at decoded
  rw [decode?, utf8Bytes, decoded]
  simp

theorem isBoundary_utf8Bytes {text : List Char} {offset : Nat} :
    isBoundary (utf8Bytes text) offset = true ↔ OnBoundary text offset := by
  have atEnds : isBoundary (utf8Bytes text) offset = true ↔
      offset = 0 ∨ offset = byteLength text ∨
        ∃ byte, (utf8Bytes text)[offset]? = some byte ∧ byte.IsUTF8FirstByte := by
    simp [isBoundary, Option.any_eq_true, or_assoc]
  rw [atEnds, ← onBoundary_iff_isUTF8FirstByte]
  constructor
  · rintro (rfl | onBoundary)
    · exact onBoundary_iff_exists_split.mpr ⟨[], text, rfl, rfl⟩
    · exact onBoundary
  · exact .inr

theorem bytesBetween?_of_split {text before inside after : List Char}
    (textEq : text = before ++ inside ++ after) :
    bytesBetween? (utf8Bytes text) (byteLength before) (byteLength before + byteLength inside) =
      some (utf8Bytes inside) := by
  rw [bytesBetween?, if_pos (by simp [textEq]), textEq, ← byteLength_append, take_utf8Bytes,
    drop_utf8Bytes]

theorem textBetween?_of_split {text before inside after : List Char}
    (textEq : text = before ++ inside ++ after) :
    textBetween? (utf8Bytes text) (byteLength before) (byteLength before + byteLength inside) =
      some inside := by
  have startCut : OnBoundary text (byteLength before) :=
    onBoundary_iff_exists_split.mpr ⟨before, inside ++ after, by simp [textEq], rfl⟩
  have stopCut : OnBoundary text (byteLength before + byteLength inside) :=
    onBoundary_iff_exists_split.mpr ⟨before ++ inside, after, textEq, byteLength_append _ _⟩
  rw [textBetween?, if_pos ⟨isBoundary_utf8Bytes.mpr startCut, isBoundary_utf8Bytes.mpr stopCut⟩,
    bytesBetween?_of_split textEq, Option.bind_some, decode?_utf8Bytes]

theorem subtract?_eq_some_iff {left right difference : Nat} :
    subtract? left right = some difference ↔ right ≤ left ∧ left - right = difference := by
  rw [subtract?, Option.ite_none_right_eq_some, Option.some.injEq]

theorem subtract?_of_le {left right : Nat} (le : right ≤ left) :
    subtract? left right = some (left - right) := if_pos le

theorem subtract?_add (left right : Nat) : subtract? (left + right) left = some right := by
  rw [subtract?_of_le (Nat.le_add_right _ _), Nat.add_sub_cancel_left]

/-! ## Reading -/

section Reading

variable {buffer : WordBuffer} {hidden behind ahead : List Char}

theorem load_inMemory (word : String) :
    (WordBuffer.load word).inMemory = load (utf8Bytes word.toList) := by
  rw [load, length_utf8Bytes]
  rfl

theorem word?_inMemory (buffer : WordBuffer) : buffer.inMemory.word? = some buffer.text := by
  have split : buffer.text = [] ++ buffer.text ++ [] := (List.append_nil buffer.text).symm
  have whole := textBetween?_of_split split
  rwa [byteLength_nil, Nat.zero_add] at whole

theorem distanceToLimit?_inMemory (wellFormed : buffer.WellFormed) :
    buffer.inMemory.distanceToLimit? = some buffer.distanceToLimit :=
  subtract?_of_le wellFormed.cursor_le_limit

theorem peek?_inMemory (wellFormed : buffer.WellFormed) (direction : Direction) :
    buffer.inMemory.peek? direction = some (buffer.peek? direction) := by
  obtain ⟨hidden, behind, ahead, parts⟩ := WordBuffer.wellFormed_iff_exists_parts.mp wellFormed
  cases direction with
  | forward =>
    have split : buffer.text = (hidden ++ behind) ++ ahead ++ [] := by
      rw [parts.text_eq, List.append_nil]
    have between := textBetween?_of_split split
    rw [byteLength_append, ← parts.limit_eq, ← parts.cursor_eq] at between
    rw [parts.peek?_forward]
    exact congrArg (Option.map List.head?) between
  | backward =>
    have between := textBetween?_of_split parts.text_eq
    rw [← parts.cursor_eq, ← parts.floor_eq] at between
    rw [parts.peek?_backward]
    exact congrArg (Option.map List.getLast?) between

theorem readable?_inMemory (parts : buffer.HasParts hidden behind ahead) (direction : Direction) :
    buffer.inMemory.readable? direction =
      some (utf8Bytes (direction.choose behind ahead)) := by
  cases direction with
  | forward =>
    have split : buffer.text = (hidden ++ behind) ++ ahead ++ [] := by
      rw [parts.text_eq, List.append_nil]
    have between := bytesBetween?_of_split split
    rw [byteLength_append, ← parts.limit_eq, ← parts.cursor_eq] at between
    exact between
  | backward =>
    have between := bytesBetween?_of_split parts.text_eq
    rw [← parts.cursor_eq, ← parts.floor_eq] at between
    exact between

theorem advance?_inMemory {direction : Direction} {count : Nat}
    (enough : direction = .backward → count ≤ buffer.cursor) :
    buffer.inMemory.advance? direction count =
      some (buffer.advance direction count).inMemory := by
  cases direction with
  | forward => rfl
  | backward =>
    have difference : subtract? buffer.inMemory.cursor count = some (buffer.cursor - count) :=
      subtract?_of_le (enough rfl)
    rw [advance?, difference]
    rfl

end Reading

/-! ## Sound buffers -/

/-- A buffer in memory is sound when its bytes encode a text, its limit is their number and its
cursor and floor lie in order between characters. -/
structure Sound (memory : ByteBuffer) : Prop where
  encodes_text : ∃ text, decode? memory.bytes = some text
  limit_eq : memory.limit = memory.bytes.length
  floor_le_cursor : memory.floor ≤ memory.cursor
  cursor_le_limit : memory.cursor ≤ memory.limit
  cursor_isBoundary : isBoundary memory.bytes memory.cursor = true
  floor_isBoundary : isBoundary memory.bytes memory.floor = true

theorem inMemory_sound {buffer : WordBuffer} (wellFormed : buffer.WellFormed) :
    buffer.inMemory.Sound where
  encodes_text := ⟨buffer.text, decode?_utf8Bytes buffer.text⟩
  limit_eq := (length_utf8Bytes buffer.text).symm
  floor_le_cursor := wellFormed.floor_le_cursor
  cursor_le_limit := wellFormed.cursor_le_limit
  cursor_isBoundary := isBoundary_utf8Bytes.mpr wellFormed.cursor_onBoundary
  floor_isBoundary := isBoundary_utf8Bytes.mpr wellFormed.floor_onBoundary

/-! ## Scanning -/

section Scanning

variable {buffer : WordBuffer}

/-- The outcome of a scan in memory: whether it succeeded, and the buffer after it. -/
def scanned (buffer : WordBuffer) (moved? : Option WordBuffer) : Bool × ByteBuffer :=
  (moved?.isSome, (moved?.getD buffer).inMemory)

theorem utf8Size_le_cursor (wellFormed : buffer.WellFormed) {character : Char}
    (peeked : buffer.peek? .backward = some character) : character.utf8Size ≤ buffer.cursor := by
  obtain ⟨hidden, behind, ahead, parts⟩ := WordBuffer.wellFormed_iff_exists_parts.mp wellFormed
  rw [parts.peek?_backward] at peeked
  obtain ⟨front, rfl⟩ := List.getLast?_eq_some_iff.mp peeked
  rw [parts.cursor_eq, byteLength_append, byteLength_cons]
  omega

theorem stepIf?_inMemory (wellFormed : buffer.WellFormed) (direction : Direction)
    (test : Char → Bool) :
    buffer.inMemory.stepIf? direction test =
      some (scanned buffer (buffer.stepIf? direction test)) := by
  rw [stepIf?, peek?_inMemory wellFormed, WordBuffer.stepIf?]
  cases peeked : buffer.peek? direction with
  | none => rfl
  | some character =>
    have enough : direction = .backward → character.utf8Size ≤ buffer.cursor := by
      rintro rfl
      exact utf8Size_le_cursor wellFormed peeked
    cases passes : test character with
    | false => simp [passes, scanned]
    | true => simp [passes, scanned, advance?_inMemory enough]

theorem hop?_inMemory (wellFormed : buffer.WellFormed) (direction : Direction)
    (start count : Nat) :
    buffer.inMemory.hop? direction start count =
      some (match buffer.hop? direction count with
        | some moved => (true, moved.inMemory)
        | none => (false, ({ buffer with cursor := start } : WordBuffer).inMemory)) := by
  induction count generalizing buffer with
  | zero => rfl
  | succ count ih =>
    rw [hop?, stepIf?_inMemory wellFormed, WordBuffer.hop?]
    cases stepped : buffer.next? direction with
    | none =>
      have stuck : buffer.stepIf? direction (fun _ => true) = none := stepped
      rw [stuck]
      rfl
    | some next =>
      have moves := wellFormed.next? stepped
      have steps : buffer.stepIf? direction (fun _ => true) = some next := stepped
      rw [steps]
      refine (ih moves.wellFormed).trans ?_
      simp only
      cases next.hop? direction count with
      | none => rw [moves.eq_withCursor]
      | some moved => rfl

theorem consume?_inMemory (wellFormed : buffer.WellFormed) (direction : Direction)
    (literal : String) :
    buffer.inMemory.consume? direction (utf8Bytes literal.toList) =
      some (scanned buffer (buffer.consume? direction literal)) := by
  obtain ⟨hidden, behind, ahead, parts⟩ := WordBuffer.wellFormed_iff_exists_parts.mp wellFormed
  have reads : continues direction (utf8Bytes literal.toList)
      (utf8Bytes (direction.choose behind ahead)) =
        (direction.inReadingOrder (utf8Bytes literal.toList)).isPrefixOf
          (buffer.view direction) := by
    rw [parts.view_eq]
    cases direction <;> rfl
  rw [consume?, readable?_inMemory parts, WordBuffer.consume?]
  simp only [Option.bind_eq_bind, Option.bind_some, reads]
  cases matched : (direction.inReadingOrder (utf8Bytes literal.toList)).isPrefixOf
      (buffer.view direction) with
  | false => simp [scanned]
  | true =>
    have enough : direction = .backward → byteLength literal.toList ≤ buffer.cursor := by
      rintro rfl
      have shorter := (List.isPrefixOf_iff_prefix.mp matched).length_le
      rw [parts.view_eq, Direction.length_inReadingOrder, Direction.length_inReadingOrder,
        length_utf8Bytes, length_utf8Bytes] at shorter
      rw [parts.cursor_eq]
      exact Nat.le_trans shorter (Nat.le_add_left _ _)
    simp [scanned, advance?_inMemory enough]

end Scanning

theorem moveTo?_inMemory {buffer : WordBuffer} {position : Nat} (inside : position ≤ buffer.limit) :
    buffer.inMemory.moveTo? position = some (buffer.moveTo position).inMemory := by
  have moved : (buffer.moveTo position).cursor = position := Nat.min_eq_left inside
  have within : position ≤ buffer.inMemory.limit := inside
  rw [moveTo?, if_pos within]
  exact congrArg (fun cursor => some { buffer.inMemory with cursor }) moved.symm

/-! ## Editing -/

section Editing

variable {buffer : WordBuffer} {start stop : Nat}

theorem carve?_isSome_iff {text : List Char} :
    (carve? text start stop).isSome = true ↔
      start ≤ stop ∧ OnBoundary text start ∧ OnBoundary text stop := by
  rw [Option.isSome_iff_exists]
  constructor
  · rintro ⟨⟨before, inside, after⟩, carved⟩
    obtain ⟨rfl, rfl, rfl⟩ := carve?_eq_some_iff.mp carved
    refine ⟨Nat.le_add_right _ _, onBoundary_iff_exists_split.mpr ⟨before, inside ++ after, ?_, rfl⟩,
      onBoundary_iff_exists_split.mpr ⟨before ++ inside, after, rfl, byteLength_append _ _⟩⟩
    rw [List.append_assoc]
  · rintro ⟨ordered, startCut, stopCut⟩
    obtain ⟨front, after, rfl, rfl⟩ := onBoundary_iff_exists_split.mp stopCut
    rw [onBoundary_append_left ordered] at startCut
    obtain ⟨before, inside, rfl, rfl⟩ := onBoundary_iff_exists_split.mp startCut
    exact ⟨_, carve?_eq_some_iff.mpr ⟨rfl, rfl, (byteLength_append _ _).symm⟩⟩

theorem delimits_inMemory (buffer : WordBuffer) (start stop : Nat) :
    buffer.inMemory.delimits start stop = (carve? buffer.text start stop).isSome := by
  rw [Bool.eq_iff_iff, carve?_isSome_iff]
  simp only [delimits, Bool.and_eq_true, decide_eq_true_eq, WordBuffer.inMemory,
    isBoundary_utf8Bytes]
  constructor
  · rintro ⟨⟨⟨ordered, -⟩, startCut⟩, stopCut⟩
    exact ⟨ordered, startCut, stopCut⟩
  · rintro ⟨ordered, startCut, stopCut⟩
    exact ⟨⟨⟨ordered, decide_eq_true stopCut.le_byteLength⟩, startCut⟩, stopCut⟩

theorem replaceText?_inMemory (buffer : WordBuffer) (start stop : Nat) (replacement : String) :
    buffer.inMemory.replaceText? start stop (utf8Bytes replacement.toList) =
      some ((buffer.replaceText start stop replacement).map (Prod.map id WordBuffer.inMemory)) := by
  rw [replaceText?, delimits_inMemory, WordBuffer.replaceText]
  cases carved : carve? buffer.text start stop with
  | none => rfl
  | some parts =>
    obtain ⟨before, inside, after⟩ := parts
    obtain ⟨textEq, rfl, rfl⟩ := carve?_eq_some_iff.mp carved
    have sliced : textBetween? buffer.inMemory.bytes (byteLength before)
        (byteLength before + byteLength inside) = some inside := textBetween?_of_split textEq
    have front : buffer.inMemory.bytes.take (byteLength before) = utf8Bytes before := by
      rw [WordBuffer.inMemory, textEq, List.append_assoc, take_utf8Bytes]
    have back : buffer.inMemory.bytes.drop (byteLength before + byteLength inside) =
        utf8Bytes after := by
      rw [WordBuffer.inMemory, textEq, ← byteLength_append, drop_utf8Bytes]
    have limitEq : buffer.inMemory.limit + byteLength replacement.toList - byteLength inside =
        byteLength (before ++ replacement.toList ++ after) := by
      have whole : buffer.inMemory.limit = byteLength (before ++ inside ++ after) :=
        congrArg byteLength textEq
      rw [whole]
      simp only [byteLength_append]
      omega
    have cursorEq : (if byteLength before + byteLength inside ≤ buffer.cursor then
          buffer.cursor + byteLength replacement.toList - byteLength inside
        else if byteLength before < buffer.cursor then byteLength before else buffer.cursor) =
        if byteLength before + byteLength inside ≤ buffer.cursor then
          WordBuffer.shifted buffer.cursor (byteLength before)
            (byteLength before + byteLength inside) replacement
        else min buffer.cursor (byteLength before) := by
      rw [WordBuffer.shifted, Nat.add_sub_cancel_left]
      split
      · rfl
      · split <;> omega
    have bytesEq : utf8Bytes before ++ utf8Bytes replacement.toList ++ utf8Bytes after =
        utf8Bytes (before ++ replacement.toList ++ after) := by
      rw [utf8Bytes_append, utf8Bytes_append]
    rw [if_pos Option.isSome_some, subtract?_add, sliced, front, back, bytesEq, length_utf8Bytes]
    refine congrArg (fun edited => some (Except.ok edited)) ?_
    rw [Prod.map_apply, Prod.mk.injEq, ByteBuffer.mk.injEq]
    exact ⟨WordBuffer.growth_of_split.symm, rfl, limitEq, cursorEq, rfl, rfl, rfl⟩

theorem splice?_inMemory (buffer : WordBuffer) (start stop : Nat) (replacement : String) :
    buffer.inMemory.splice? start stop (utf8Bytes replacement.toList) =
      some ((buffer.splice start stop replacement).map WordBuffer.inMemory) := by
  rw [splice?, replaceText?_inMemory, WordBuffer.splice]
  cases buffer.replaceText start stop replacement <;> rfl

theorem replaceSlice?_inMemory (buffer : WordBuffer) (replacement : String) :
    buffer.inMemory.replaceSlice? (utf8Bytes replacement.toList) =
      some ((buffer.replaceSlice replacement).map WordBuffer.inMemory) :=
  splice?_inMemory buffer _ _ replacement

theorem slice?_inMemory (buffer : WordBuffer) :
    buffer.inMemory.slice? = some (buffer.slice.map String.toList) := by
  rw [slice?, delimits_inMemory, WordBuffer.slice]
  have marks : carve? buffer.text buffer.inMemory.sliceStart buffer.inMemory.sliceEnd =
    carve? buffer.text buffer.sliceStart buffer.sliceEnd := rfl
  rw [marks]
  cases carved : carve? buffer.text buffer.sliceStart buffer.sliceEnd with
  | none => rfl
  | some parts =>
    obtain ⟨before, inside, after⟩ := parts
    obtain ⟨textEq, startEq, stopEq⟩ := carve?_eq_some_iff.mp carved
    have sliced := textBetween?_of_split textEq
    rw [stopEq, startEq] at sliced
    rw [if_pos Option.isSome_some]
    refine (congrArg (Option.map Except.ok) sliced).trans ?_
    simp [Except.map]

theorem insert?_inMemory (buffer : WordBuffer) (start stop : Nat) (replacement : String) :
    buffer.inMemory.insert? start stop (utf8Bytes replacement.toList) =
      some ((buffer.insert start stop replacement).map WordBuffer.inMemory) := by
  rw [insert?, splice?_inMemory, WordBuffer.insert]
  cases spliced : buffer.splice start stop replacement with
  | error defect => rfl
  | ok edited =>
    obtain ⟨before, inside, after, -, rfl, rfl⟩ := WordBuffer.exists_split_of_splice spliced
    simp only [Option.bind_eq_bind, Option.bind_some, Except.map, subtract?_add, length_utf8Bytes,
      WordBuffer.shifted, Nat.add_sub_cancel_left]
    rfl

end Editing

end ByteBuffer

end WordStem
