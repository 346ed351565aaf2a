import Mathlib.Data.List.Basic
import WordStem.VectorMeasures

/-! # The entries of a sparse mapping

The ascending entries of a mapping are cut at an index into those before it, the entry of the index
if there is one, and those behind it. Storing a number at the index keeps what lies on both sides
and replaces what is between them, and so every operation is read off the cut. -/
namespace WordStem.SparseMapping

/-- A number unless it is zero, which is never stored. -/
def nonzero? (value : Float) : Option Float :=
  if value == 0.0 then none else some value

/-- The entry of an index, if a number is stored there. -/
def entryAt (index : Nat) (stored? : Option Float) : List (Nat × Float) :=
  stored?.toList.map fun value => (index, value)

@[simp]
theorem entryAt_none (index : Nat) : entryAt index none = [] :=
  rfl

@[simp]
theorem entryAt_some (index : Nat) (value : Float) :
    entryAt index (some value) = [(index, value)] :=
  rfl

theorem nonzero?_of_zero {value : Float} (zero : (value == 0.0) = true) :
    nonzero? value = none := by
  rw [nonzero?, if_pos zero]

theorem nonzero?_of_not_zero {value : Float} (notZero : (value == 0.0) = false) :
    nonzero? value = some value := by
  rw [nonzero?, if_neg (by simp [notZero])]

theorem not_zero_of_nonzero? {value stored : Float} (kept : nonzero? value = some stored) :
    (stored == 0.0) = false := by
  rw [nonzero?] at kept
  split at kept
  · cases kept
  · next different =>
    obtain rfl := Option.some.inj kept
    simpa using different

/-- Both zeros are zero, and what is not a number is not. -/
example : nonzero? 0.0 = none ∧ nonzero? (-0.0) = none ∧ (nonzero? (0.0 / 0.0)).isSome := by
  decide

/-! ## Cutting at an index -/

structure CutAt (index : Nat) (entries front : List (Nat × Float)) (stored? : Option Float)
    (back : List (Nat × Float)) : Prop where
  entries_eq : entries = front ++ entryAt index stored? ++ back
  front_lt : ∀ entry ∈ front, entry.1 < index
  lt_back : ∀ entry ∈ back, index < entry.1

theorem exists_cutAt (index : Nat) {entries : List (Nat × Float)}
    (ascending : entries.Pairwise fun left right => left.1 < right.1) :
    ∃ front stored? back, CutAt index entries front stored? back := by
  induction entries with
  | nil => exact ⟨[], none, [], rfl, by simp, by simp⟩
  | cons entry rest ih =>
    obtain ⟨later, restAscending⟩ := List.pairwise_cons.mp ascending
    obtain ⟨first, stored⟩ := entry
    rcases Nat.lt_trichotomy first index with before | rfl | behind
    · obtain ⟨front, stored?, back, restEq, frontLt, ltBack⟩ := ih restAscending
      refine ⟨(first, stored) :: front, stored?, back, by rw [restEq]; rfl, ?_, ltBack⟩
      exact List.forall_mem_cons.mpr ⟨before, frontLt⟩
    · exact ⟨[], some stored, rest, rfl, by simp, later⟩
    · refine ⟨[], none, (first, stored) :: rest, rfl, by simp, ?_⟩
      exact List.forall_mem_cons.mpr
        ⟨behind, fun other member => Nat.lt_trans behind (later other member)⟩

theorem lookup_eq_none_of_ne {index : Nat} {entries : List (Nat × Float)}
    (others : ∀ entry ∈ entries, entry.1 ≠ index) : entries.lookup index = none := by
  refine List.lookup_eq_none_iff.mpr fun entry member => ?_
  simpa using (others entry member).symm

/-- Looking every index of an ascending list up gives its numbers back. -/
theorem filterMap_lookup {entries : List (Nat × Float)}
    (ascending : entries.Pairwise fun left right => left.1 < right.1) :
    (entries.map Prod.fst).filterMap (fun index => entries.lookup index) =
      entries.map Prod.snd := by
  induction entries with
  | nil => rfl
  | cons entry rest ih =>
    obtain ⟨later, restAscending⟩ := List.pairwise_cons.mp ascending
    have beyond : ∀ index ∈ rest.map Prod.fst,
        (entry :: rest).lookup index = rest.lookup index := by
      intro index member
      obtain ⟨other, inRest, rfl⟩ := List.mem_map.mp member
      have apart : (other.1 == entry.1) = false := by
        simpa using Nat.ne_of_gt (later other inRest)
      rw [List.lookup_cons, apart]
    rw [List.map_cons, List.filterMap_cons, List.lookup_cons, beq_self_eq_true,
      List.filterMap_congr beyond, ih restAscending, List.map_cons]

theorem mem_indices_iff (mapping : SparseMapping) (index : Nat) :
    index ∈ mapping.indices ↔ (mapping.get? index).isSome := by
  rw [indices]
  cases found : mapping.get? index with
  | none =>
    have absent := List.lookup_eq_none_iff.mp found
    refine iff_of_false (fun member => ?_) (by simp)
    obtain ⟨entry, inside, rfl⟩ := List.mem_map.mp member
    simpa using absent entry inside
  | some value =>
    obtain ⟨before, after, entriesEq, -⟩ := List.lookup_eq_some_iff.mp found
    exact iff_of_true (by simp [entriesEq]) rfl

namespace CutAt

variable {index : Nat} {entries front back : List (Nat × Float)} {stored? : Option Float}

theorem front_ne (cut : CutAt index entries front stored? back) :
    ∀ entry ∈ front, entry.1 ≠ index :=
  fun entry member => Nat.ne_of_lt (cut.front_lt entry member)

theorem back_ne (cut : CutAt index entries front stored? back) :
    ∀ entry ∈ back, entry.1 ≠ index :=
  fun entry member => Nat.ne_of_gt (cut.lt_back entry member)

theorem lookup_eq (cut : CutAt index entries front stored? back) :
    entries.lookup index = stored? := by
  rw [cut.entries_eq, List.lookup_append, List.lookup_append,
    lookup_eq_none_of_ne cut.front_ne, lookup_eq_none_of_ne cut.back_ne]
  cases stored? <;> simp

/-- What is stored at the index is of no account to the others. -/
theorem lookup_of_ne (cut : CutAt index entries front stored? back) {other : Nat}
    (different : other ≠ index) : entries.lookup other = (front ++ back).lookup other := by
  have apart : (other == index) = false := by simpa using different
  rw [cut.entries_eq, List.lookup_append, List.lookup_append, List.lookup_append]
  cases stored? <;> simp [List.lookup_cons, apart]

theorem filter_eq (cut : CutAt index entries front stored? back) :
    entries.filter (fun entry => entry.1 != index) = front ++ back := by
  have frontKept : front.filter (fun entry => entry.1 != index) = front :=
    List.filter_eq_self.mpr fun entry member => by simpa using cut.front_ne entry member
  have backKept : back.filter (fun entry => entry.1 != index) = back :=
    List.filter_eq_self.mpr fun entry member => by simpa using cut.back_ne entry member
  rw [cut.entries_eq, List.filter_append, List.filter_append, frontKept, backKept]
  cases stored? <;> simp

theorem putEntry_eq (cut : CutAt index entries front stored? back) (value : Float) :
    putEntry index value entries = front ++ entryAt index (some value) ++ back := by
  obtain ⟨rfl, frontLt, ltBack⟩ := cut
  induction front with
  | nil =>
    cases stored? with
    | some stored => simp [putEntry]
    | none =>
      cases back with
      | nil => rfl
      | cons entry rest => simp [putEntry, ltBack entry List.mem_cons_self]
  | cons entry rest ih =>
    obtain ⟨below, restLt⟩ := List.forall_mem_cons.mp frontLt
    have keeps := ih restLt
    simp only [List.cons_append, putEntry]
    rw [if_neg (Nat.lt_asymm below), if_neg (Nat.ne_of_gt below), keeps]

/-- Another number, or none, may stand at the index. -/
theorem replace (cut : CutAt index entries front stored? back) (next? : Option Float) :
    CutAt index (front ++ entryAt index next? ++ back) front next? back where
  entries_eq := rfl
  front_lt := cut.front_lt
  lt_back := cut.lt_back

theorem pairwise_replace (cut : CutAt index entries front stored? back)
    (ascending : entries.Pairwise fun left right => left.1 < right.1) (next? : Option Float) :
    (front ++ entryAt index next? ++ back).Pairwise fun left right => left.1 < right.1 := by
  rw [cut.entries_eq, List.append_assoc, List.pairwise_append, List.pairwise_append] at ascending
  obtain ⟨frontAscending, ⟨-, backAscending, -⟩, across⟩ := ascending
  have acrossBack : ∀ left ∈ front, ∀ right ∈ back, left.1 < right.1 := fun left member right =>
    fun other => across left member right (List.mem_append_right _ other)
  cases next? with
  | none =>
    simp only [entryAt_none, List.append_nil]
    exact List.pairwise_append.mpr ⟨frontAscending, backAscending, acrossBack⟩
  | some value =>
    rw [entryAt_some, List.append_assoc, List.singleton_append, List.pairwise_append,
      List.pairwise_cons]
    refine ⟨frontAscending, ⟨cut.lt_back, backAscending⟩, fun left member right other => ?_⟩
    rcases List.mem_cons.mp other with rfl | behind
    · exact cut.front_lt left member
    · exact acrossBack left member right behind

end CutAt

/-! ## Storing and scaling -/

/-- What an operation may rely on and keeps. -/
structure Sound (mapping : SparseMapping) : Prop where
  ascending : mapping.entries.Pairwise fun left right => left.1 < right.1
  not_zero : ∀ entry ∈ mapping.entries, (entry.2 == 0.0) = false
  size_le : mapping.size ≤ mapping.capacity

variable {mapping : SparseMapping}

theorem withCapacity_sound (capacity : Nat) : (withCapacity capacity).Sound where
  ascending := List.Pairwise.nil
  not_zero := by simp [withCapacity]
  size_le := Nat.zero_le capacity

theorem set_entries {index : Nat} {front back : List (Nat × Float)} {stored? : Option Float}
    (cut : CutAt index mapping.entries front stored? back) (value : Float) :
    (mapping.set index value).entries = front ++ entryAt index (nonzero? value) ++ back := by
  rw [set]
  split
  next zero => simp [cut.filter_eq, nonzero?_of_zero zero]
  next different =>
    rw [nonzero?_of_not_zero (by simpa using different)]
    exact cut.putEntry_eq value

theorem get?_set (sound : mapping.Sound) (index : Nat) (value : Float) (other : Nat) :
    (mapping.set index value).get? other =
      if other = index then nonzero? value else mapping.get? other := by
  obtain ⟨front, stored?, back, cut⟩ := exists_cutAt index sound.ascending
  rw [get?, get?, set_entries cut]
  have next := cut.replace (nonzero? value)
  split
  next same => rw [same, next.lookup_eq]
  next different => rw [next.lookup_of_ne different, cut.lookup_of_ne different]

/-- A mapping makes room exactly for a new entry. -/
theorem set_capacity (mapping : SparseMapping) (index : Nat) (value : Float) :
    (mapping.set index value).capacity =
      if (nonzero? value).isSome ∧ mapping.get? index = none then
        roomFor mapping.size mapping.capacity
      else mapping.capacity := by
  rw [set, nonzero?]
  split
  · simp
  · cases mapping.get? index <;> simp

theorem size_lt_roomFor (size capacity : Nat) : size < roomFor size capacity := by
  rw [roomFor]
  split
  · assumption
  · exact Nat.lt_of_lt_of_le (Nat.lt_succ_self size) (Nat.le_max_right _ _)

theorem Sound.set (sound : mapping.Sound) (index : Nat) (value : Float) :
    (mapping.set index value).Sound := by
  obtain ⟨front, stored?, back, cut⟩ := exists_cutAt index sound.ascending
  have entriesEq := set_entries cut value
  have storedEq : mapping.get? index = stored? := cut.lookup_eq
  have sizeEq : mapping.size = front.length + stored?.toList.length + back.length := by
    simp [size, cut.entries_eq, entryAt, Nat.add_assoc]
  refine ⟨?_, ?_, ?_⟩
  · rw [entriesEq]
    exact cut.pairwise_replace sound.ascending _
  · intro entry member
    rw [entriesEq, List.append_assoc, List.mem_append, List.mem_append] at member
    rcases member with before | here | behind
    · exact sound.not_zero entry (by simp [cut.entries_eq, before])
    · obtain ⟨stored, kept?, rfl⟩ := List.mem_map.mp here
      exact not_zero_of_nonzero? (Option.mem_toList.mp kept?)
    · exact sound.not_zero entry (by simp [cut.entries_eq, behind])
  · have room := size_lt_roomFor mapping.size mapping.capacity
    have fits := sound.size_le
    rw [set_capacity, storedEq, size, entriesEq]
    cases nonzero? value <;> cases stored? <;>
      simp [entryAt] at sizeEq ⊢ <;> omega

theorem scale_entries (mapping : SparseMapping) (factor : Float) :
    (mapping.scale factor).entries = mapping.entries.filterMap fun entry =>
      (nonzero? (entry.2 * factor)).map fun value => (entry.1, value) := by
  simp only [scale, nonzero?]
  congr 1
  funext entry
  split <;> rfl

theorem get?_scale (sound : mapping.Sound) (factor : Float) (index : Nat) :
    (mapping.scale factor).get? index =
      (mapping.get? index).bind fun value => nonzero? (value * factor) := by
  rw [get?, get?, scale_entries]
  have ascending := sound.ascending
  generalize mapping.entries = entries at ascending ⊢
  induction entries with
  | nil => rfl
  | cons entry rest ih =>
    obtain ⟨later, restAscending⟩ := List.pairwise_cons.mp ascending
    obtain ⟨first, stored⟩ := entry
    have tail := ih restAscending
    by_cases same : index = first
    · subst same
      cases kept : nonzero? (stored * factor) with
      | some value => simp [kept]
      | none =>
        have gone := lookup_eq_none_of_ne fun entry member => Nat.ne_of_gt (later entry member)
        rw [gone, Option.bind_none] at tail
        simp [kept, tail]
    · have apart : (index == first) = false := by simpa using same
      cases kept : nonzero? (stored * factor) <;> simp [kept, tail, List.lookup_cons, apart]

theorem Sound.scale (sound : mapping.Sound) (factor : Float) : (mapping.scale factor).Sound where
  ascending := by
    rw [scale_entries, List.pairwise_filterMap]
    refine sound.ascending.imp fun less left leftEq right rightEq => ?_
    obtain ⟨_, -, rfl⟩ := Option.map_eq_some_iff.mp leftEq
    obtain ⟨_, -, rfl⟩ := Option.map_eq_some_iff.mp rightEq
    exact less
  not_zero := by
    intro entry member
    rw [scale_entries] at member
    obtain ⟨before, -, kept⟩ := List.mem_filterMap.mp member
    obtain ⟨value, kept?, rfl⟩ := Option.map_eq_some_iff.mp kept
    exact not_zero_of_nonzero? kept?
  size_le := by
    refine Nat.le_trans ?_ sound.size_le
    exact List.length_filterMap_le _ _

theorem Sound.normalize (sound : mapping.Sound) : mapping.normalize.Sound := by
  rw [SparseMapping.normalize]
  split
  · exact sound.scale _
  · exact sound

theorem Sound.setAll (sound : mapping.Sound) (pairs : List (Nat × Float)) :
    (pairs.foldl (fun mapping pair => mapping.set pair.1 pair.2) mapping).Sound := by
  induction pairs generalizing mapping with
  | nil => exact sound
  | cons pair pairs ih => exact ih (sound.set pair.1 pair.2)

theorem ofPairs_sound (pairs : List (Nat × Float)) : (ofPairs pairs).Sound :=
  (withCapacity_sound defaultCapacity).setAll pairs

end WordStem.SparseMapping
