import Mathlib.Data.List.Pairwise
import WordStem.Proofs.MappingHistories

/-! # Canonical pairs

A mapping made from pairs keeps, for every index, the number of the last pair with that index, and
keeps nothing where that number is zero. Its entries are ascending, so they are determined by what
is stored at each index, and how the pairs were ordered has no part in them. Main statement:
`pairs_canonical`, for the entries of a mapping and for the two arrays in memory. -/
namespace WordStem

namespace PairedArrays

/-- The pairs that two arrays list. -/
def pairs (arrays : PairedArrays) : List (Nat × Float) :=
  arrays.indices.zip arrays.values

@[simp]
theorem pairs_inMemory (mapping : SparseMapping) : mapping.inMemory.pairs = mapping.entries := by
  have zipped := List.zip_unzip mapping.entries
  rwa [List.unzip_eq_map] at zipped

end PairedArrays

namespace SparseMapping

variable {mapping left right : SparseMapping} {index : Nat} {value : Float}

/-! ## Entries are determined by what is stored -/

/-- Where every index occurs once, looking up is membership. -/
theorem lookup_eq_some_iff_mem {pairs : List (Nat × Float)}
    (distinct : pairs.Pairwise fun left right => left.1 ≠ right.1) :
    pairs.lookup index = some value ↔ (index, value) ∈ pairs := by
  induction pairs with
  | nil => simp
  | cons pair pairs ih =>
    obtain ⟨others, restDistinct⟩ := List.pairwise_cons.mp distinct
    obtain ⟨first, stored⟩ := pair
    rw [List.mem_cons, ← ih restDistinct, List.lookup_cons]
    by_cases same : index = first
    · subst same
      have gone : pairs.lookup index = none :=
        lookup_eq_none_of_ne fun other member => (others other member).symm
      simp [gone, eq_comm]
    · have apart : (index == first) = false := by simpa using same
      simp [apart, same]

theorem Sound.distinct (sound : mapping.Sound) :
    mapping.entries.Pairwise fun left right => left.1 ≠ right.1 :=
  sound.ascending.imp fun less => Nat.ne_of_lt less

theorem Sound.mem_entries_iff (sound : mapping.Sound) :
    (index, value) ∈ mapping.entries ↔ mapping.get? index = some value :=
  (lookup_eq_some_iff_mem sound.distinct).symm

theorem Sound.entries_eq (leftSound : left.Sound) (rightSound : right.Sound)
    (same : ∀ index, left.get? index = right.get? index) : left.entries = right.entries := by
  have irreflexive : Std.Irrefl fun left right : Nat × Float => left.1 < right.1 :=
    ⟨fun entry => Nat.lt_irrefl entry.1⟩
  have antisymmetric : Std.Antisymm fun left right : Nat × Float => left.1 < right.1 :=
    ⟨fun _ _ less greater => absurd greater (Nat.lt_asymm less)⟩
  refine leftSound.ascending.eq_of_mem_iff rightSound.ascending fun entry => ?_
  obtain ⟨index, value⟩ := entry
  rw [leftSound.mem_entries_iff, rightSound.mem_entries_iff, same]

/-! ## The last pair of an index -/

/-- The number of the last pair with an index. -/
def lastNumber? (pairs : List (Nat × Float)) (index : Nat) : Option Float :=
  pairs.reverse.lookup index

/-- The number of the last pair with an index, which is zero where there is no pair. -/
def lastNumber (pairs : List (Nat × Float)) (index : Nat) : Float :=
  (lastNumber? pairs index).getD 0.0

/-- Two lists of pairs agree when they end with the same number at every index; both zeros are
the same. -/
def Agree (first second : List (Nat × Float)) : Prop :=
  ∀ index, lastNumber first index = lastNumber second index ∨
    (lastNumber first index == 0.0) = true ∧ (lastNumber second index == 0.0) = true

theorem lastNumber?_concat (pairs : List (Nat × Float)) (pair : Nat × Float) (index : Nat) :
    lastNumber? (pairs ++ [pair]) index =
      if index = pair.1 then some pair.2 else lastNumber? pairs index := by
  obtain ⟨first, number⟩ := pair
  rw [lastNumber?, List.reverse_concat, List.lookup_cons, lastNumber?]
  by_cases same : index = first
  · simp [same]
  · have apart : (index == first) = false := by simpa using same
    simp [apart, same]

/-- What is stored after all pairs have been set, one after the other. -/
theorem get?_ofPairs (pairs : List (Nat × Float)) (index : Nat) :
    (ofPairs pairs).get? index = (lastNumber? pairs index).bind nonzero? := by
  induction pairs using List.reverseRecOn with
  | nil => rfl
  | append_singleton pairs pair ih =>
    have last : ofPairs (pairs ++ [pair]) = (ofPairs pairs).set pair.1 pair.2 :=
      List.foldl_append ..
    rw [last, get?_set (ofPairs_sound pairs), lastNumber?_concat, ih]
    split <;> rfl

theorem bind_nonzero?_eq_some_iff {number? : Option Float} :
    number?.bind nonzero? = some value ↔ number? = some value ∧ (value == 0.0) = false := by
  constructor
  · intro kept
    obtain ⟨number, numberEq, notZero⟩ := Option.bind_eq_some_iff.mp kept
    rw [nonzero?] at notZero
    split at notZero
    · cases notZero
    · next different =>
      obtain rfl := Option.some.inj notZero
      exact ⟨numberEq, by simpa using different⟩
  · rintro ⟨rfl, notZero⟩
    exact nonzero?_of_not_zero notZero

theorem mem_ofPairs_iff (pairs : List (Nat × Float)) :
    (index, value) ∈ (ofPairs pairs).entries ↔
      lastNumber? pairs index = some value ∧ (value == 0.0) = false := by
  rw [(ofPairs_sound pairs).mem_entries_iff, get?_ofPairs, bind_nonzero?_eq_some_iff]

/-- No pair counts as zero. -/
theorem nonzero?_lastNumber (pairs : List (Nat × Float)) (index : Nat) :
    nonzero? (lastNumber pairs index) = (lastNumber? pairs index).bind nonzero? := by
  rw [lastNumber]
  cases lastNumber? pairs index with
  | none => exact nonzero?_of_zero (by decide)
  | some number => rfl

theorem Agree.entries_eq {first second : List (Nat × Float)} (agree : Agree first second) :
    (ofPairs first).entries = (ofPairs second).entries := by
  refine (ofPairs_sound first).entries_eq (ofPairs_sound second) fun index => ?_
  rw [get?_ofPairs, get?_ofPairs, ← nonzero?_lastNumber, ← nonzero?_lastNumber]
  rcases agree index with same | ⟨firstZero, secondZero⟩
  · rw [same]
  · rw [nonzero?_of_zero firstZero, nonzero?_of_zero secondZero]

/-- A sound mapping is made again from its own entries. -/
theorem Sound.ofPairs_entries (sound : mapping.Sound) :
    (ofPairs mapping.entries).entries = mapping.entries := by
  refine (ofPairs_sound _).entries_eq sound fun index => ?_
  have reversed : mapping.entries.reverse.Pairwise fun left right => left.1 ≠ right.1 :=
    List.pairwise_reverse.mpr (sound.distinct.imp Ne.symm)
  refine Option.ext fun value => ?_
  rw [get?_ofPairs, bind_nonzero?_eq_some_iff, lastNumber?, lookup_eq_some_iff_mem reversed,
    List.mem_reverse, sound.mem_entries_iff]
  constructor
  · exact And.left
  · intro stored
    exact ⟨stored, sound.not_zero (index, value) (sound.mem_entries_iff.mpr stored)⟩

end SparseMapping

namespace MappingChange

open SparseMapping

/-- The entries of a mapping made from pairs are ascending and hold exactly the last numbers that
are not zero, so pairs that agree give the same entries whatever their order; and a mapping is made
again from what it lists after any history. The same is true of the two arrays in memory, where
rebuilding never faults. -/
theorem pairs_canonical (pairs : List (Nat × Float)) :
    (ofPairs pairs).entries.Pairwise (fun left right => left.1 < right.1) ∧
      (∀ index value, (index, value) ∈ (ofPairs pairs).entries ↔
        lastNumber? pairs index = some value ∧ (value == 0.0) = false) ∧
      (∀ others, Agree pairs others → (ofPairs others).entries = (ofPairs pairs).entries) ∧
      (∀ room history, let mapping := performAll (.withCapacity room) history
        (ofPairs mapping.entries).entries = mapping.entries) ∧
      ∃ arrays, PairedArrays.ofPairs? pairs = some arrays ∧
        arrays.pairs = (ofPairs pairs).entries ∧
        (∀ others, Agree pairs others → ∃ same, PairedArrays.ofPairs? others = some same ∧
          same.indices = arrays.indices ∧ same.values = arrays.values) ∧
        ∀ room history, ∃ listed again, performAll? (.withRoom room) history = some listed ∧
          PairedArrays.ofPairs? listed.pairs = some again ∧
          again.indices = listed.indices ∧ again.values = listed.values := by
  have rebuilt (room : Nat) (history : List MappingChange) :
      (ofPairs (performAll (.withCapacity room) history).entries).entries =
        (performAll (.withCapacity room) history).entries :=
    (performAll_sound (withCapacity_sound room) history).ofPairs_entries
  refine ⟨(ofPairs_sound pairs).ascending, fun _ _ => mem_ofPairs_iff pairs,
    fun others agree => agree.entries_eq.symm, rebuilt, (ofPairs pairs).inMemory,
    PairedArrays.ofPairs?_eq pairs, PairedArrays.pairs_inMemory _, ?_, ?_⟩
  · intro others agree
    refine ⟨_, PairedArrays.ofPairs?_eq others, ?_, ?_⟩
    · exact congrArg (List.map Prod.fst) agree.entries_eq.symm
    · exact congrArg (List.map Prod.snd) agree.entries_eq.symm
  · intro room history
    have performed := performAll?_inMemory (withCapacity_sound room) history
    refine ⟨_, _, performed, PairedArrays.ofPairs?_eq _, ?_, ?_⟩
    · rw [PairedArrays.pairs_inMemory]
      exact congrArg (List.map Prod.fst) (rebuilt room history)
    · rw [PairedArrays.pairs_inMemory]
      exact congrArg (List.map Prod.snd) (rebuilt room history)

end MappingChange

end WordStem
