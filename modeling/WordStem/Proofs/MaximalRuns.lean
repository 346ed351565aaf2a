import WordStem.CharacterRuns

/-! # Maximal runs

A run of characters that pass a test is maximal when it cannot be made longer on either side. What
is cut out of a text are its maximal runs, each at its place and in the order of the places. Main
statements: `mem_spans_iff` and `runs_eq_map_spans`. -/
namespace WordStem

/-- The characters from one position of a text up to another one are a run of characters that pass
a test, and neither side of it can be moved outward. -/
structure IsMaximalRun (keep : Char → Bool) (text : List Char) (start stop : Nat) : Prop where
  nonempty : start < stop
  inside : stop ≤ text.length
  kept : ∀ index character, start ≤ index → index < stop → text[index]? = some character →
    keep character = true
  begins : ∀ character, 0 < start → text[start - 1]? = some character → keep character = false
  ends : ∀ character, text[stop]? = some character → keep character = false

/-- The places of the maximal runs of a text, when the run from `start` up to `stop` has been read
and the given characters come next. -/
def spansFrom (keep : Char → Bool) (start stop : Nat) : List Char → List (Nat × Nat)
  | [] => if start < stop then [(start, stop)] else []
  | character :: rest =>
    if keep character then
      spansFrom keep start (stop + 1) rest
    else if start < stop then
      (start, stop) :: spansFrom keep (stop + 1) (stop + 1) rest
    else
      spansFrom keep (stop + 1) (stop + 1) rest

/-- The places of the maximal runs of a text: where each begins and where it ends. -/
def spans (keep : Char → Bool) (text : List Char) : List (Nat × Nat) :=
  spansFrom keep 0 0 text

variable {keep : Char → Bool} {text rest : List Char} {start stop first last : Nat}

/-- A maximal run does not reach beyond a position at which the text does not go on with it. -/
theorem IsMaximalRun.last_le (run : IsMaximalRun keep text first last)
    (ends : ∀ character, text[stop]? = some character → keep character = false)
    (atMost : first ≤ stop) : last ≤ stop := by
  rcases Nat.lt_or_ge stop last with longer | shorter
  · have found := List.getElem?_eq_getElem (Nat.lt_of_lt_of_le longer run.inside)
    have kept := run.kept stop _ atMost longer found
    rw [ends _ found] at kept
    cases kept
  · exact shorter

/-! ## Reading a text -/

/-- A text has been read up to a position, and a run that cannot begin earlier reaches it. -/
structure ReadUpTo (keep : Char → Bool) (text : List Char) (start stop : Nat)
    (rest : List Char) : Prop where
  drop_eq : text.drop stop = rest
  start_le : start ≤ stop
  stop_le : stop ≤ text.length
  kept : ∀ index character, start ≤ index → index < stop → text[index]? = some character →
    keep character = true
  begins : ∀ character, 0 < start → text[start - 1]? = some character → keep character = false

namespace ReadUpTo

theorem begin (keep : Char → Bool) (text : List Char) : ReadUpTo keep text 0 0 text where
  drop_eq := List.drop_zero
  start_le := Nat.le_refl 0
  stop_le := Nat.zero_le _
  kept := fun _ _ _ before => absurd before (Nat.not_lt_zero _)
  begins := fun _ positive => absurd positive (Nat.lt_irrefl 0)

variable {character : Char}

theorem getElem?_stop (reading : ReadUpTo keep text start stop (character :: rest)) :
    text[stop]? = some character := by
  rw [← Nat.add_zero stop, ← List.getElem?_drop, reading.drop_eq, List.getElem?_cons_zero]

theorem stop_lt (reading : ReadUpTo keep text start stop (character :: rest)) :
    stop < text.length :=
  (List.getElem?_eq_some_iff.mp reading.getElem?_stop).1

theorem drop_succ (reading : ReadUpTo keep text start stop (character :: rest)) :
    text.drop (stop + 1) = rest := by
  rw [← List.drop_drop, reading.drop_eq, List.drop_one, List.tail_cons]

theorem keeps (reading : ReadUpTo keep text start stop (character :: rest))
    (passes : keep character = true) : ReadUpTo keep text start (stop + 1) rest where
  drop_eq := reading.drop_succ
  start_le := Nat.le_succ_of_le reading.start_le
  stop_le := reading.stop_lt
  kept := by
    intro index other after before found
    rcases Nat.eq_or_lt_of_le (Nat.le_of_lt_succ before) with rfl | earlier
    · rwa [Option.some.inj (found.symm.trans reading.getElem?_stop)]
    · exact reading.kept index other after earlier found
  begins := reading.begins

theorem drops (reading : ReadUpTo keep text start stop (character :: rest))
    (fails : keep character = false) : ReadUpTo keep text (stop + 1) (stop + 1) rest where
  drop_eq := reading.drop_succ
  start_le := Nat.le_refl _
  stop_le := reading.stop_lt
  kept := fun index _ after before => by omega
  begins := by
    intro other _ found
    rwa [Option.some.inj (found.symm.trans reading.getElem?_stop)]

/-- The run that has been read is maximal if the text does not go on with it. -/
theorem isMaximalRun (reading : ReadUpTo keep text start stop rest) (nonempty : start < stop)
    (ends : ∀ character, text[stop]? = some character → keep character = false) :
    IsMaximalRun keep text start stop :=
  ⟨nonempty, reading.stop_le, reading.kept, reading.begins, ends⟩

/-- No other maximal run lies in what has been read from the start of the run on. -/
theorem eq_of_lt (reading : ReadUpTo keep text start stop rest)
    (run : IsMaximalRun keep text first last) (after : start ≤ first) (before : first < stop) :
    first = start ∧ stop ≤ last := by
  have inside := reading.stop_le
  constructor
  · rcases Nat.eq_or_lt_of_le after with same | later
    · exact same.symm
    · have found := List.getElem?_eq_getElem (show first - 1 < text.length by omega)
      have kept := reading.kept (first - 1) _ (by omega) (by omega) found
      rw [run.begins _ (by omega) found] at kept
      cases kept
  · rcases Nat.lt_or_ge last stop with shorter | longer
    · have nonempty := run.nonempty
      have found := List.getElem?_eq_getElem (show last < text.length by omega)
      have kept := reading.kept last _ (by omega) shorter found
      rw [run.ends _ found] at kept
      cases kept
    · exact longer

/-- If the text does not go on with the run that has been read, then that run, unless it is empty,
is the one maximal run that begins in it or at its end. -/
theorem isMaximalRun_iff (reading : ReadUpTo keep text start stop rest)
    (ends : ∀ character, text[stop]? = some character → keep character = false) :
    start ≤ first ∧ first ≤ stop ∧ IsMaximalRun keep text first last ↔
      start < stop ∧ (first, last) = (start, stop) := by
  constructor
  · rintro ⟨after, atMost, run⟩
    have nonempty := run.nonempty
    have shorter := run.last_le ends atMost
    obtain ⟨rfl, longer⟩ := reading.eq_of_lt run after (by omega)
    exact ⟨by omega, by rw [Nat.le_antisymm shorter longer]⟩
  · rintro ⟨nonempty, same⟩
    obtain ⟨rfl, rfl⟩ := Prod.mk.inj same
    exact ⟨Nat.le_refl _, reading.start_le, reading.isMaximalRun nonempty ends⟩

/-- The places to come are those of the maximal runs that begin no earlier than the one that is
being read. -/
theorem mem_spansFrom_iff (reading : ReadUpTo keep text start stop rest) :
    (first, last) ∈ spansFrom keep start stop rest ↔
      start ≤ first ∧ IsMaximalRun keep text first last := by
  induction rest generalizing start stop with
  | nil =>
    have stopEq : stop = text.length :=
      Nat.le_antisymm reading.stop_le (List.drop_eq_nil_iff.mp reading.drop_eq)
    have ends (other : Char) (found : text[stop]? = some other) : keep other = false := by
      simp [stopEq] at found
    have inside (run : IsMaximalRun keep text first last) : first ≤ stop :=
      stopEq ▸ Nat.le_trans (Nat.le_of_lt run.nonempty) run.inside
    have member : (first, last) ∈ spansFrom keep start stop [] ↔
        start < stop ∧ (first, last) = (start, stop) := by
      rw [spansFrom]
      split
      case isTrue nonempty => simp [nonempty]
      case isFalse none => simp [none]
    rw [member, ← reading.isMaximalRun_iff ends]
    exact ⟨fun ⟨after, _, run⟩ => ⟨after, run⟩, fun ⟨after, run⟩ => ⟨after, inside run, run⟩⟩
  | cons character rest ih =>
    by_cases passes : keep character = true
    · rw [spansFrom, if_pos passes]
      exact ih (reading.keeps passes)
    · have fails : keep character = false := Bool.eq_false_iff.mpr passes
      have ends (other : Char) (found : text[stop]? = some other) : keep other = false := by
        rwa [Option.some.inj (found.symm.trans reading.getElem?_stop)]
      have member : (first, last) ∈ spansFrom keep start stop (character :: rest) ↔
          (start < stop ∧ (first, last) = (start, stop)) ∨
            (first, last) ∈ spansFrom keep (stop + 1) (stop + 1) rest := by
        rw [spansFrom, if_neg passes]
        split
        case isTrue nonempty => simp [nonempty]
        case isFalse none => simp [none]
      rw [member, ← reading.isMaximalRun_iff ends, ih (reading.drops fails)]
      constructor
      · rintro (⟨after, -, run⟩ | ⟨beyond, run⟩)
        · exact ⟨after, run⟩
        · exact ⟨Nat.le_trans reading.start_le (Nat.le_of_succ_le beyond), run⟩
      · rintro ⟨after, run⟩
        rcases Nat.lt_or_ge stop first with beyond | atMost
        · exact .inr ⟨beyond, run⟩
        · exact .inl ⟨after, atMost, run⟩

end ReadUpTo

/-! ## The runs of a text -/

theorem start_le_of_mem_spansFrom {span : Nat × Nat} (le : start ≤ stop)
    (member : span ∈ spansFrom keep start stop rest) : start ≤ span.1 := by
  induction rest generalizing start stop with
  | nil =>
    rw [spansFrom] at member
    split at member
    · obtain rfl := List.mem_singleton.mp member
      exact Nat.le_refl _
    · cases member
  | cons character rest ih =>
    rw [spansFrom] at member
    split at member
    · exact ih (Nat.le_succ_of_le le) member
    · split at member
      · rcases List.mem_cons.mp member with rfl | member
        · exact Nat.le_refl _
        · exact Nat.le_trans (Nat.le_succ_of_le le) (ih (Nat.le_refl _) member)
      · exact Nat.le_trans (Nat.le_succ_of_le le) (ih (Nat.le_refl _) member)

/-- There is a character between two maximal runs that belongs to neither. -/
theorem spansFrom_pairwise (keep : Char → Bool) (start stop : Nat) (rest : List Char) :
    (spansFrom keep start stop rest).Pairwise fun earlier later => earlier.2 < later.1 := by
  induction rest generalizing start stop with
  | nil =>
    rw [spansFrom]
    split
    · exact List.pairwise_singleton _ _
    · exact .nil
  | cons character rest ih =>
    rw [spansFrom]
    split
    · exact ih start (stop + 1)
    · split
      · refine .cons (fun later member => ?_) (ih (stop + 1) (stop + 1))
        exact start_le_of_mem_spansFrom (Nat.le_refl _) member
      · exact ih (stop + 1) (stop + 1)

theorem spans_pairwise (keep : Char → Bool) (text : List Char) :
    (spans keep text).Pairwise fun earlier later => earlier.2 < later.1 :=
  spansFrom_pairwise keep 0 0 text

/-- The places are those of the maximal runs, and all of them. -/
theorem mem_spans_iff : (first, last) ∈ spans keep text ↔ IsMaximalRun keep text first last := by
  rw [spans, (ReadUpTo.begin keep text).mem_spansFrom_iff]
  simp

theorem runsFrom_eq_map_spansFrom {current : List Char}
    (reading : ReadUpTo keep text start stop rest)
    (currentEq : current.reverse = text.extract start stop) :
    runsFrom keep current rest =
      (spansFrom keep start stop rest).map fun span => text.extract span.1 span.2 := by
  have isEmptyEq : current.isEmpty = !decide (start < stop) := by
    have inside := reading.stop_le
    have lengthEq : current.length = stop - start := by
      rw [← List.length_reverse, currentEq, List.extract_eq_take_drop, List.length_take,
        List.length_drop]
      omega
    rw [Bool.eq_iff_iff, List.isEmpty_iff_length_eq_zero, lengthEq]
    simp [Nat.sub_eq_zero_iff_le]
  induction rest generalizing start stop current with
  | nil =>
    rw [runsFrom, spansFrom, isEmptyEq]
    by_cases nonempty : start < stop
    · simp [nonempty, currentEq]
    · simp [nonempty]
  | cons character rest ih =>
    rw [runsFrom, spansFrom, isEmptyEq]
    split
    case isTrue passes =>
      have le := reading.start_le
      apply ih (reading.keeps passes)
      · have found : (text.drop start)[stop - start]? = some character := by
          rw [List.getElem?_drop, Nat.add_sub_cancel' le, reading.getElem?_stop]
        rw [List.reverse_cons, currentEq, List.extract_eq_take_drop, List.extract_eq_take_drop,
          Nat.sub_add_comm le, List.take_add_one, found]
        rfl
      · simp [Nat.lt_succ_of_le le]
    case isFalse fails =>
      have later : runsFrom keep [] rest =
          (spansFrom keep (stop + 1) (stop + 1) rest).map fun span => text.extract span.1 span.2 :=
        ih (reading.drops (Bool.eq_false_iff.mpr fails)) (by simp) (by simp)
      by_cases nonempty : start < stop
      · simp [nonempty, later, currentEq]
      · simp [nonempty, later]

/-- What is cut out of a text stands at the places of its maximal runs. -/
theorem runs_eq_map_spans (keep : Char → Bool) (text : List Char) :
    runs keep text = (spans keep text).map fun span => text.extract span.1 span.2 :=
  runsFrom_eq_map_spansFrom (ReadUpTo.begin keep text) (by simp)

end WordStem
