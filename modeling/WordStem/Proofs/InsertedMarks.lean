import WordStem.Proofs.ExactEdits

/-! # Marks through an insertion

An insertion moves a mark along with the text if the mark does not lie before the replaced text. A
mark behind that text keeps its place in the word in this way, and so does a mark that lies before
it and is not moved. A mark at a replaced character is moved too, although it has nothing to
follow. The main statement, `insert_keeps_marks`, says that the marks delimit a slice again unless
one of them lies there, and that no weaker condition is enough for all replacements. -/
namespace WordStem.WordBuffer

/-- Where an insertion between two positions leaves a mark. -/
def followed (mark start stop : Nat) (replacement : String) : Nat :=
  if start ≤ mark then shifted mark start stop replacement else mark

/-- An edit between two positions spares a mark that lies before or behind the replaced text. -/
def SparesMark (start stop mark : Nat) : Prop :=
  mark < start ∨ stop ≤ mark

variable {buffer edited : WordBuffer} {before inside after : List Char}
  {start stop mark : Nat} {replacement : String}

theorem Delimits.exists_insert (delimits : buffer.Delimits start stop) (replacement : String) :
    ∃ edited, buffer.insert start stop replacement = .ok edited := by
  obtain ⟨before, inside, after, textEq, startEq, stopEq⟩ := delimits.exists_split
  rw [insert, splice_of_split textEq startEq stopEq]
  exact ⟨_, rfl⟩

/-- An insertion that is not refused replaces one of three parts of the text. -/
theorem exists_split_of_insert (done : buffer.insert start stop replacement = .ok edited) :
    ∃ before inside after, buffer.text = before ++ inside ++ after ∧
      byteLength before = start ∧ byteLength before + byteLength inside = stop ∧
      edited.text = before ++ replacement.toList ++ after ∧
      edited.sliceStart = followed buffer.sliceStart start stop replacement ∧
      edited.sliceEnd = followed buffer.sliceEnd start stop replacement := by
  cases spliced : buffer.splice start stop replacement with
  | error defect =>
    rw [insert, spliced] at done
    cases done
  | ok moved =>
    obtain ⟨before, inside, after, textEq, startEq, stopEq⟩ := exists_split_of_splice spliced
    rw [insert, splice_of_split textEq startEq stopEq] at done
    obtain rfl := Except.ok.inj done
    exact ⟨before, inside, after, textEq, startEq, stopEq, rfl, rfl, rfl⟩

/-! ## One mark -/

theorem followed_inFront (inFront : mark < start) :
    followed mark start stop replacement = mark :=
  if_neg (Nat.not_le.mpr inFront)

/-- A mark behind the replaced text keeps its distance to that text. -/
theorem followed_behind (rest : Nat) :
    followed (byteLength before + byteLength inside + rest) (byteLength before)
        (byteLength before + byteLength inside) replacement =
      byteLength (before ++ replacement.toList) + rest := by
  rw [followed, if_pos (by omega), shifted, byteLength_append]
  omega

theorem onBoundary_followed (cut : OnBoundary (before ++ inside ++ after) mark)
    (spared : SparesMark (byteLength before) (byteLength before + byteLength inside) mark) :
    OnBoundary (before ++ replacement.toList ++ after)
      (followed mark (byteLength before) (byteLength before + byteLength inside) replacement) := by
  rcases spared with inFront | behind
  · rw [followed_inFront inFront, List.append_assoc,
      onBoundary_append_left (Nat.le_of_lt inFront)]
    rwa [List.append_assoc, onBoundary_append_left (Nat.le_of_lt inFront)] at cut
  · obtain ⟨rest, rfl⟩ := Nat.exists_eq_add_of_le behind
    rw [← byteLength_append, onBoundary_append_right] at cut
    rwa [followed_behind, onBoundary_append_right]

theorem followed_le_followed {first last : Nat} (ordered : first ≤ last) (startLe : start ≤ stop)
    (firstSpared : SparesMark start stop first) (lastSpared : SparesMark start stop last) :
    followed first start stop replacement ≤ followed last start stop replacement := by
  rcases firstSpared with firstInFront | firstBehind
  · rw [followed_inFront firstInFront]
    rcases lastSpared with lastInFront | lastBehind
    · rwa [followed_inFront lastInFront]
    · rw [followed, if_pos (Nat.le_trans startLe lastBehind), shifted]
      omega
  · have lastBehind : stop ≤ last := Nat.le_trans firstBehind ordered
    rw [followed, followed, if_pos (Nat.le_trans startLe firstBehind),
      if_pos (Nat.le_trans startLe lastBehind), shifted, shifted]
    omega

theorem byteLength_replicate (count : Nat) : byteLength (List.replicate count 'a') = count := by
  induction count with
  | zero => rfl
  | succ count ih =>
    rw [List.replicate_succ, byteLength_cons, ih, Nat.add_comm]
    rfl

/-- For a mark that is not spared there is a replacement that begins with a long character and
leaves the mark inside of it. -/
theorem Delimits.exists_insert_misplacing (delimits : buffer.Delimits start stop)
    (struck : ¬ SparesMark start stop mark) :
    ∃ replacement edited, buffer.insert start stop replacement = .ok edited ∧
      ¬ OnBoundary edited.text (followed mark start stop replacement) ∧
      edited.sliceStart = followed buffer.sliceStart start stop replacement ∧
      edited.sliceEnd = followed buffer.sliceEnd start stop replacement := by
  obtain ⟨notInFront, notBehind⟩ := not_or.mp struck
  let replacement := String.ofList ('𝄞' :: List.replicate (stop - mark - 1) 'a')
  obtain ⟨edited, done⟩ := delimits.exists_insert replacement
  obtain ⟨before, inside, after, -, startEq, -, editedEq, sliceStartEq, sliceEndEq⟩ :=
    exists_split_of_insert done
  have inCharacter : followed mark start stop replacement = byteLength before + 3 := by
    have wide : Char.utf8Size '𝄞' = 4 := rfl
    rw [followed, if_pos (Nat.not_lt.mp notInFront), shifted, String.toList_ofList,
      byteLength_cons, byteLength_replicate, wide]
    omega
  refine ⟨replacement, edited, done, ?_, sliceStartEq, sliceEndEq⟩
  rw [inCharacter, editedEq, List.append_assoc, onBoundary_append_right, String.toList_ofList]
  exact Bool.false_ne_true

/-! ## The marked slice -/

/-- The slice operations are not refused: the marked slice can be read and replaced by anything. -/
structure SliceUsable (buffer : WordBuffer) : Prop where
  marked : buffer.Delimits buffer.sliceStart buffer.sliceEnd
  readable : ∃ text, buffer.slice = .ok text
  replaceable : ∀ replacement, ∃ edited, buffer.replaceSlice replacement = .ok edited

theorem slice_of_split (textEq : buffer.text = before ++ inside ++ after)
    (startEq : byteLength before = buffer.sliceStart)
    (stopEq : byteLength before + byteLength inside = buffer.sliceEnd) :
    buffer.slice = .ok (String.ofList inside) := by
  rw [slice, carve?_eq_some_iff.mpr ⟨textEq, startEq, stopEq⟩]

theorem Delimits.sliceUsable (marked : buffer.Delimits buffer.sliceStart buffer.sliceEnd) :
    buffer.SliceUsable := by
  obtain ⟨before, inside, after, textEq, startEq, stopEq⟩ := marked.exists_split
  refine ⟨marked, ⟨_, slice_of_split textEq startEq stopEq⟩, ?_⟩
  intro replacement
  exact ⟨_, splice_of_split textEq startEq stopEq⟩

theorem Delimits.insert (marked : buffer.Delimits buffer.sliceStart buffer.sliceEnd)
    (done : buffer.insert start stop replacement = .ok edited)
    (startSpared : SparesMark start stop buffer.sliceStart)
    (endSpared : SparesMark start stop buffer.sliceEnd) :
    edited.Delimits edited.sliceStart edited.sliceEnd := by
  obtain ⟨before, inside, after, textEq, rfl, rfl, editedEq, sliceStartEq, sliceEndEq⟩ :=
    exists_split_of_insert done
  obtain ⟨ordered, -, startCut, stopCut⟩ := marked
  rw [textEq] at startCut stopCut
  have stopCutNew : OnBoundary edited.text edited.sliceEnd := by
    rw [editedEq, sliceEndEq]
    exact onBoundary_followed stopCut endSpared
  constructor
  case ordered =>
    rw [sliceStartEq, sliceEndEq]
    exact followed_le_followed ordered (Nat.le_add_right _ _) startSpared endSpared
  case stop_le_limit => exact stopCutNew.le_byteLength
  case start_onBoundary =>
    rw [editedEq, sliceStartEq]
    exact onBoundary_followed startCut startSpared
  case stop_onBoundary => exact stopCutNew

/-- Text that is replaced before the marked slice leaves the slice as it was. -/
theorem slice_insert_of_le (marked : buffer.Delimits buffer.sliceStart buffer.sliceEnd)
    (done : buffer.insert start stop replacement = .ok edited) (apart : stop ≤ buffer.sliceStart) :
    edited.slice = buffer.slice := by
  obtain ⟨before, inside, after, textEq, rfl, rfl, editedEq, sliceStartEq, sliceEndEq⟩ :=
    exists_split_of_insert done
  obtain ⟨head, kept, tail, markedEq, startEq, stopEq⟩ := marked.exists_split
  obtain ⟨passed, rfl⟩ : before ++ inside <+: head := by
    apply isPrefix_of_byteLength_le ⟨after, textEq.symm⟩
    · exact ⟨kept ++ tail, by rw [markedEq, List.append_assoc]⟩
    · rwa [byteLength_append, startEq]
  have afterEq : after = passed ++ kept ++ tail := by
    rw [markedEq, List.append_assoc (before ++ inside), List.append_assoc (before ++ inside)]
      at textEq
    exact (List.append_cancel_left textEq).symm
  have splitEq : edited.text = before ++ replacement.toList ++ passed ++ kept ++ tail := by
    rw [editedEq, afterEq]
    simp only [List.append_assoc]
  have lengthEq : byteLength (before ++ inside ++ passed) =
      byteLength before + byteLength inside + byteLength passed := by
    rw [byteLength_append, byteLength_append]
  rw [slice_of_split markedEq startEq stopEq]
  apply slice_of_split splitEq
  · rw [sliceStartEq, ← startEq, lengthEq, followed_behind, byteLength_append]
  · rw [sliceEndEq, ← stopEq, lengthEq, Nat.add_assoc _ (byteLength passed), followed_behind,
      byteLength_append (before ++ replacement.toList), Nat.add_assoc]

/-- Text that is replaced behind the marked slice leaves the slice as it was. -/
theorem slice_insert_of_lt (marked : buffer.Delimits buffer.sliceStart buffer.sliceEnd)
    (done : buffer.insert start stop replacement = .ok edited) (apart : buffer.sliceEnd < start) :
    edited.slice = buffer.slice := by
  obtain ⟨before, inside, after, textEq, rfl, rfl, editedEq, sliceStartEq, sliceEndEq⟩ :=
    exists_split_of_insert done
  obtain ⟨head, kept, tail, markedEq, startEq, stopEq⟩ := marked.exists_split
  obtain ⟨passed, rfl⟩ : head ++ kept <+: before := by
    apply isPrefix_of_byteLength_le ⟨tail, markedEq.symm⟩
    · exact ⟨inside ++ after, by rw [textEq, List.append_assoc]⟩
    · rw [byteLength_append, stopEq]
      exact Nat.le_of_lt apart
  rw [slice_of_split markedEq startEq stopEq]
  apply slice_of_split
  · rw [editedEq, List.append_assoc (head ++ kept), List.append_assoc (head ++ kept)]
  · rw [sliceStartEq, followed_inFront (Nat.lt_of_le_of_lt marked.ordered apart), startEq]
  · rw [sliceEndEq, followed_inFront apart, stopEq]

/-- If each of the marks lies before or behind the replaced text, the marked slice is usable again;
if moreover that text does not overlap the marked slice, the slice is the same as before. A mark at
the start of the replaced text or inside it is no such mark, and then there is a replacement after
which the slice cannot be read any more. -/
theorem insert_keeps_marks (marked : buffer.Delimits buffer.sliceStart buffer.sliceEnd) :
    (∀ start stop replacement edited, buffer.insert start stop replacement = .ok edited →
      SparesMark start stop buffer.sliceStart → SparesMark start stop buffer.sliceEnd →
        edited.SliceUsable ∧
          (stop ≤ buffer.sliceStart ∨ start < stop ∧ start ≥ buffer.sliceEnd →
            edited.slice = buffer.slice)) ∧
    ∀ start stop, buffer.Delimits start stop →
      ¬ (SparesMark start stop buffer.sliceStart ∧ SparesMark start stop buffer.sliceEnd) →
        ∃ replacement edited, buffer.insert start stop replacement = .ok edited ∧
          edited.slice =
            .error (.faultySlice edited.sliceStart edited.sliceEnd edited.limit) := by
  constructor
  · intro start stop replacement edited done startSpared endSpared
    refine ⟨(marked.insert done startSpared endSpared).sliceUsable, ?_⟩
    rintro (inFront | ⟨nonempty, behind⟩)
    · exact slice_insert_of_le marked done inFront
    · rcases endSpared with endInFront | endBehind
      · exact slice_insert_of_lt marked done endInFront
      · omega
  · intro start stop delimits struck
    rcases Classical.not_and_iff_not_or_not.mp struck with startStruck | endStruck
    · obtain ⟨replacement, edited, done, apart, sliceStartEq, -⟩ :=
        delimits.exists_insert_misplacing startStruck
      refine ⟨replacement, edited, done, edited.readsSlice.refused fun again => apart ?_⟩
      rw [← sliceStartEq]
      exact again.start_onBoundary
    · obtain ⟨replacement, edited, done, apart, -, sliceEndEq⟩ :=
        delimits.exists_insert_misplacing endStruck
      refine ⟨replacement, edited, done, edited.readsSlice.refused fun again => apart ?_⟩
      rw [← sliceEndEq]
      exact again.stop_onBoundary

/-- In `kert` with `rt` marked, an insertion at the start moves both marks. -/
theorem insert_keeps_marks_kert :
    let buffer := { load "kert" with cursor := 4, sliceStart := 2, sliceEnd := 4 }
    buffer.Delimits 2 4 ∧
      ∃ edited, buffer.insert 0 0 "vi" = .ok edited ∧ edited.text = "vikert".toList ∧
        edited.SliceUsable ∧ edited.slice = .ok "rt" := by
  intro buffer
  have marked : buffer.Delimits 2 4 := by decide
  obtain ⟨keeps, -⟩ := insert_keeps_marks marked
  have done := keeps 0 0 "vi" _ rfl (.inr (Nat.zero_le 2)) (.inr (Nat.zero_le 4))
  exact ⟨marked, _, rfl, rfl, done.1, done.2 (.inl (Nat.zero_le 2))⟩

/-- In `abcd` with `b` marked, the replacement of `cd` by nothing does not overlap the marked slice,
and yet it moves the end of the slice before its start. -/
theorem insert_crosses_marks :
    let buffer := { load "abcd" with cursor := 2, sliceStart := 1, sliceEnd := 2 }
    buffer.WellFormed ∧ buffer.Delimits buffer.sliceStart buffer.sliceEnd ∧
      buffer.slice = .ok "b" ∧
      ∃ edited, buffer.insert 2 4 "" = .ok edited ∧ edited.text = "ab".toList ∧
        edited.sliceStart = 1 ∧ edited.sliceEnd = 0 ∧
        ¬ edited.Delimits edited.sliceStart edited.sliceEnd ∧
        edited.slice = .error (.faultySlice 1 0 2) := by
  refine ⟨⟨by decide, by decide, by decide, by decide⟩, by decide, rfl, _, rfl, rfl, rfl, rfl, ?_,
    rfl⟩
  intro delimits
  exact absurd delimits.ordered (by decide)

end WordStem.WordBuffer
