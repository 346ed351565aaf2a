import WordStem.Proofs.ByteBuffer
import WordStem.Rule

/-! # What an edit changes

Two positions either delimit a slice of the word or they do not. If they do not, an edit between
them is refused and changes nothing at all. If they do, exactly that slice is replaced, and the
cursor keeps its place in what is left of the text. The main statement, `edits_splice_or_refuse`,
says so of all edits, and that none of them leaves the bounds of the memory on the way. -/
namespace WordStem

namespace WordBuffer

/-- Two positions delimit a slice when they are in order, not behind the limit, and both between
characters. -/
structure Delimits (buffer : WordBuffer) (start stop : Nat) : Prop where
  ordered : start ≤ stop
  stop_le_limit : stop ≤ buffer.limit
  start_onBoundary : OnBoundary buffer.text start
  stop_onBoundary : OnBoundary buffer.text stop

/-- The bytes of a buffer between two positions. -/
def bytesBetween (buffer : WordBuffer) (start stop : Nat) : List UInt8 :=
  ((utf8Bytes buffer.text).take stop).drop start

/-- A buffer in which the text between two positions was replaced. The lengths are compared as
integers, so that nothing can be hidden by a difference that stops at zero. -/
structure Spliced (buffer : WordBuffer) (start stop : Nat) (replacement : String)
    (edited : WordBuffer) : Prop where
  bytes_eq : utf8Bytes edited.text =
    buffer.bytesBetween 0 start ++ utf8Bytes replacement.toList ++
      buffer.bytesBetween stop buffer.limit
  limit_eq : (edited.limit : Int) = buffer.limit + growth start stop replacement
  floor_eq : edited.floor = buffer.floor
  sliceStart_eq : edited.sliceStart = buffer.sliceStart
  sliceEnd_eq : edited.sliceEnd = buffer.sliceEnd
  /-- Behind the edit, the cursor moves with the text that follows it. -/
  cursor_behind : stop ≤ buffer.cursor →
    (edited.cursor : Int) = buffer.cursor + growth start stop replacement ∧
      edited.bytesBetween edited.cursor edited.limit =
        buffer.bytesBetween buffer.cursor buffer.limit ∧
      edited.distanceToLimit = buffer.distanceToLimit
  cursor_inFront : buffer.cursor ≤ start → buffer.cursor < stop → edited.cursor = buffer.cursor
  cursor_inside : start < buffer.cursor → buffer.cursor < stop → edited.cursor = start
  cursor_le_limit : edited.cursor ≤ edited.limit
  cursor_onBoundary : OnBoundary edited.text edited.cursor

section Parts

variable {buffer : WordBuffer} {before inside after : List Char} {start stop : Nat}
  {replacement : String}

theorem delimits_iff_carve? :
    buffer.Delimits start stop ↔ (carve? buffer.text start stop).isSome = true := by
  rw [ByteBuffer.carve?_isSome_iff]
  constructor
  · intro delimits
    exact ⟨delimits.ordered, delimits.start_onBoundary, delimits.stop_onBoundary⟩
  · rintro ⟨ordered, startCut, stopCut⟩
    exact ⟨ordered, stopCut.le_byteLength, startCut, stopCut⟩

instance : Decidable (buffer.Delimits start stop) :=
  decidable_of_iff _ delimits_iff_carve?.symm

/-- Positions that delimit a slice cut the text into three parts. -/
theorem Delimits.exists_split (delimits : buffer.Delimits start stop) :
    ∃ before inside after, buffer.text = before ++ inside ++ after ∧
      byteLength before = start ∧ byteLength before + byteLength inside = stop := by
  obtain ⟨⟨before, inside, after⟩, carved⟩ :=
    Option.isSome_iff_exists.mp (delimits_iff_carve?.mp delimits)
  exact ⟨before, inside, after, carve?_eq_some_iff.mp carved⟩

theorem carve?_eq_none_of_not_delimits (apart : ¬ buffer.Delimits start stop) :
    carve? buffer.text start stop = none := by
  rw [delimits_iff_carve?] at apart
  exact Option.not_isSome_iff_eq_none.mp apart

theorem bytesBetween_zero (textEq : buffer.text = before ++ after) :
    buffer.bytesBetween 0 (byteLength before) = utf8Bytes before := by
  rw [bytesBetween, textEq, take_utf8Bytes, List.drop_zero]

theorem bytesBetween_limit (textEq : buffer.text = before ++ after) :
    buffer.bytesBetween (byteLength before) buffer.limit = utf8Bytes after := by
  have whole : (utf8Bytes buffer.text).length ≤ buffer.limit :=
    Nat.le_of_eq (length_utf8Bytes buffer.text)
  rw [bytesBetween, List.take_of_length_le whole, textEq, drop_utf8Bytes]

theorem bytesBetween_inside (textEq : buffer.text = before ++ inside ++ after) :
    buffer.bytesBetween (byteLength before) (byteLength before + byteLength inside) =
      utf8Bytes inside := by
  rw [bytesBetween, textEq, ← byteLength_append, take_utf8Bytes, drop_utf8Bytes]

end Parts

variable {buffer : WordBuffer} {start stop : Nat}

/-- An edit between positions that delimit a slice replaces that slice. -/
theorem Delimits.exists_spliced (delimits : buffer.Delimits start stop)
    (cursorCut : OnBoundary buffer.text buffer.cursor) (replacement : String) :
    ∃ edited, buffer.replaceText start stop replacement =
        .ok (growth start stop replacement, edited) ∧
      buffer.Spliced start stop replacement edited := by
  obtain ⟨before, inside, after, textEq, rfl, rfl⟩ := delimits.exists_split
  refine ⟨_, replaceText_of_split textEq rfl rfl, ?_⟩
  have frontEq : buffer.text = before ++ (inside ++ after) := by rw [textEq, List.append_assoc]
  have backEq : buffer.bytesBetween (byteLength before + byteLength inside) buffer.limit =
      utf8Bytes after := by
    rw [← byteLength_append]
    exact bytesBetween_limit textEq
  have limitEq : buffer.limit = byteLength before + byteLength inside + byteLength after := by
    rw [limit, textEq, byteLength_append, byteLength_append]
  have cursorCutNew : OnBoundary (before ++ replacement.toList ++ after)
      (if byteLength before + byteLength inside ≤ buffer.cursor then
        shifted buffer.cursor (byteLength before) (byteLength before + byteLength inside)
          replacement
      else min buffer.cursor (byteLength before)) := by
    split
    next behind =>
      obtain ⟨passed, ahead, rfl, -, moved⟩ :=
        exists_split_of_shifted textEq cursorCut behind replacement
      rw [moved]
      exact onBoundary_iff_exists_split.mpr ⟨_, ahead, (List.append_assoc _ _ _).symm, rfl⟩
    next =>
      rw [List.append_assoc]
      exact onBoundary_min_cursor textEq cursorCut _
  constructor
  case bytes_eq => rw [bytesBetween_zero frontEq, backEq, utf8Bytes_append, utf8Bytes_append]
  case limit_eq =>
    rw [growth_of_split, limitEq]
    simp only [limit, byteLength_append]
    omega
  case floor_eq => rfl
  case sliceStart_eq => rfl
  case sliceEnd_eq => rfl
  case cursor_behind =>
    intro behind
    obtain ⟨passed, ahead, rfl, cursorEq, moved⟩ :=
      exists_split_of_shifted textEq cursorCut behind replacement
    have aheadOf : buffer.text = before ++ inside ++ passed ++ ahead := by
      rw [textEq, List.append_assoc (before ++ inside)]
    simp only [if_pos behind, moved]
    refine ⟨?_, ?_, ?_⟩
    · rw [growth_of_split, cursorEq]
      simp only [byteLength_append]
      omega
    · rw [cursorEq, bytesBetween_limit aheadOf]
      exact bytesBetween_limit (List.append_assoc _ _ _).symm
    · simp only [distanceToLimit, limit, cursorEq, aheadOf, byteLength_append]
      omega
  case cursor_inFront =>
    intro inFront before_stop
    rw [if_neg (Nat.not_le.mpr before_stop)]
    exact Nat.min_eq_left inFront
  case cursor_inside =>
    intro past before_stop
    rw [if_neg (Nat.not_le.mpr before_stop)]
    exact Nat.min_eq_right (Nat.le_of_lt past)
  case cursor_le_limit => exact cursorCutNew.le_byteLength
  case cursor_onBoundary => exact cursorCutNew

/-- Replacing text is refused exactly when the positions delimit no slice. Otherwise the answer is
by how much the word has become longer. -/
structure ReplacesText (buffer : WordBuffer) (start stop : Nat) (replacement : String) : Prop where
  refused : ¬ buffer.Delimits start stop →
    buffer.replaceText start stop replacement = .error (.faultySlice start stop buffer.limit)
  done : buffer.Delimits start stop →
    ∃ edited, buffer.replaceText start stop replacement =
        .ok ((edited.limit : Int) - buffer.limit, edited) ∧
      buffer.Spliced start stop replacement edited

theorem WellFormed.replacesText (wellFormed : buffer.WellFormed) (start stop : Nat)
    (replacement : String) : buffer.ReplacesText start stop replacement := by
  constructor
  · intro apart
    rw [replaceText, carve?_eq_none_of_not_delimits apart]
  · intro delimits
    obtain ⟨edited, done, spliced⟩ :=
      delimits.exists_spliced wellFormed.cursor_onBoundary replacement
    refine ⟨edited, ?_, spliced⟩
    rw [done, spliced.limit_eq, Int.add_comm, Int.add_sub_cancel]

end WordBuffer

/-- A rule that edits the slice between two positions: it is refused, and leaves the workspace as
it was, exactly when they delimit none. -/
structure RuleM.EditsSlice {Context : Type} (rule : RuleM Context Unit)
    (workspace : Workspace Context) (start stop : Nat) (replacement : String) : Prop where
  refused : ¬ workspace.buffer.Delimits start stop →
    rule workspace = .error (.faultySlice start stop workspace.buffer.limit) workspace
  done : workspace.buffer.Delimits start stop →
    ∃ edited, rule workspace = .ok () { workspace with buffer := edited } ∧
      workspace.buffer.Spliced start stop replacement edited

theorem RuleM.edit_splice_editsSlice {Context : Type} (workspace : Workspace Context)
    (wellFormed : workspace.buffer.WellFormed) (start stop : Nat) (replacement : String) :
    (RuleM.edit fun buffer => buffer.splice start stop replacement).EditsSlice workspace start stop
      replacement := by
  have replaces := wellFormed.replacesText start stop replacement
  constructor
  · intro apart
    simp only [RuleM.edit, WordBuffer.splice, replaces.refused apart, Except.map]
  · intro delimits
    obtain ⟨edited, done, spliced⟩ := replaces.done delimits
    refine ⟨edited, ?_, spliced⟩
    simp only [RuleM.edit, WordBuffer.splice, done, Except.map]

/-- Reading the marked slice is refused exactly when the marks delimit none. -/
structure WordBuffer.ReadsSlice (buffer : WordBuffer) : Prop where
  refused : ¬ buffer.Delimits buffer.sliceStart buffer.sliceEnd →
    buffer.slice = .error (.faultySlice buffer.sliceStart buffer.sliceEnd buffer.limit)
  done : buffer.Delimits buffer.sliceStart buffer.sliceEnd →
    ∃ text, buffer.slice = .ok text ∧
      utf8Bytes text.toList = buffer.bytesBetween buffer.sliceStart buffer.sliceEnd

theorem WordBuffer.readsSlice (buffer : WordBuffer) : buffer.ReadsSlice := by
  constructor
  · intro apart
    rw [slice, carve?_eq_none_of_not_delimits apart]
  · intro delimits
    obtain ⟨before, inside, after, textEq, startEq, stopEq⟩ := delimits.exists_split
    refine ⟨String.ofList inside, ?_, ?_⟩
    · rw [slice, carve?_eq_some_iff.mpr ⟨textEq, startEq, stopEq⟩]
    · rw [← startEq, ← stopEq, bytesBetween_inside textEq, String.toList_ofList]

/-- The edits of a buffer in memory have results, which are the results for its text. -/
structure WordBuffer.EditsInMemory (buffer : WordBuffer) (start stop : Nat)
    (replacement : String) : Prop where
  replaceText : buffer.inMemory.replaceText? start stop (utf8Bytes replacement.toList) =
    some ((buffer.replaceText start stop replacement).map (Prod.map id WordBuffer.inMemory))
  splice : buffer.inMemory.splice? start stop (utf8Bytes replacement.toList) =
    some ((buffer.splice start stop replacement).map WordBuffer.inMemory)
  replaceSlice : buffer.inMemory.replaceSlice? (utf8Bytes replacement.toList) =
    some ((buffer.replaceSlice replacement).map WordBuffer.inMemory)
  slice : buffer.inMemory.slice? = some (buffer.slice.map String.toList)

/-- Every edit of a well-formed buffer replaces the slice it is asked for, or is refused because
there is no such slice and changes nothing. The marks are arbitrary. -/
theorem edits_splice_or_refuse {Context : Type} (workspace : Workspace Context)
    (wellFormed : workspace.buffer.WellFormed) (start stop : Nat) (replacement : String) :
    workspace.buffer.ReplacesText start stop replacement ∧
      (RuleM.edit fun buffer => buffer.splice start stop replacement).EditsSlice workspace
        start stop replacement ∧
      (RuleM.edit fun buffer => buffer.replaceSlice replacement).EditsSlice workspace
        workspace.buffer.sliceStart workspace.buffer.sliceEnd replacement ∧
      (RuleM.edit WordBuffer.deleteSlice).EditsSlice workspace
        workspace.buffer.sliceStart workspace.buffer.sliceEnd "" ∧
      workspace.buffer.ReadsSlice ∧
      workspace.buffer.EditsInMemory start stop replacement := by
  refine ⟨wellFormed.replacesText start stop replacement,
    RuleM.edit_splice_editsSlice workspace wellFormed start stop replacement, ?_, ?_,
    workspace.buffer.readsSlice, ?_⟩
  · have edits := RuleM.edit_splice_editsSlice workspace wellFormed
      workspace.buffer.sliceStart workspace.buffer.sliceEnd replacement
    exact ⟨edits.refused, edits.done⟩
  · have edits := RuleM.edit_splice_editsSlice workspace wellFormed
      workspace.buffer.sliceStart workspace.buffer.sliceEnd ""
    exact ⟨edits.refused, edits.done⟩
  · constructor
    · exact ByteBuffer.replaceText?_inMemory workspace.buffer start stop replacement
    · exact ByteBuffer.splice?_inMemory workspace.buffer start stop replacement
    · exact ByteBuffer.replaceSlice?_inMemory workspace.buffer replacement
    · exact ByteBuffer.slice?_inMemory workspace.buffer

/-- From the end of `házak` the long vowel can be replaced by a short one, which is a byte less: the
cursor moves by one and still stands at the end. An edit that begins inside the vowel is refused. -/
theorem edits_splice_or_refuse_hazak :
    let workspace : Workspace Unit := ⟨(WordBuffer.load "házak").beginBackward, ()⟩
    workspace.buffer.WellFormed ∧ workspace.buffer.Delimits 1 3 ∧
      ¬ workspace.buffer.Delimits 2 3 ∧
      (∃ edited, workspace.buffer.replaceText 1 3 "a" = .ok (-1, edited) ∧
        workspace.buffer.Spliced 1 3 "a" edited ∧ (edited.cursor : Int) = 6 + -1 ∧
        edited.distanceToLimit = 0) ∧
      RuleM.edit (fun buffer => buffer.splice 2 3 "a") workspace =
        .error (.faultySlice 2 3 6) workspace := by
  intro workspace
  have wellFormed : workspace.buffer.WellFormed :=
    (WordBuffer.load_hasParts "házak").beginBackward.wellFormed
  have delimits : workspace.buffer.Delimits 1 3 := by decide
  have apart : ¬ workspace.buffer.Delimits 2 3 := by decide
  obtain ⟨edited, done, spliced⟩ := (edits_splice_or_refuse workspace wellFormed 1 3 "a").1.done
    delimits
  rw [spliced.limit_eq, Int.add_comm, Int.add_sub_cancel] at done
  obtain ⟨moved, -, distance⟩ := spliced.cursor_behind (by decide)
  exact ⟨wellFormed, delimits, apart, ⟨edited, done, spliced, moved, distance⟩,
    (edits_splice_or_refuse workspace wellFormed 2 3 "a").2.1.refused apart⟩

end WordStem
