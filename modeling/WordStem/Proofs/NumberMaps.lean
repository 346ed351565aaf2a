import Mathlib.Data.Finset.Sort
import WordStem.Proofs.SparseEntries

/-! # Number maps

A number map says what a sparse mapping stores without saying how: it gives a number to finitely
many indices. Each operation on mappings has its meaning here, and a mapping that stands for a map
stands for the changed map after the operation. -/
namespace WordStem

structure NumberMap where
  number? : Nat → Option Float
  indices : Finset Nat
  mem_indices : ∀ index, index ∈ indices ↔ (number? index).isSome

namespace NumberMap

def empty : NumberMap where
  number? := fun _ => none
  indices := ∅
  mem_indices := by simp

/-- The number at an index, which is zero where there is none. -/
def number (map : NumberMap) (index : Nat) : Float :=
  (map.number? index).getD 0.0

def store (map : NumberMap) (index : Nat) (value : Float) : NumberMap where
  number? := Function.update map.number? index (some value)
  indices := insert index map.indices
  mem_indices := by
    intro other
    by_cases same : other = index <;> simp [same, map.mem_indices]

def erase (map : NumberMap) (index : Nat) : NumberMap where
  number? := Function.update map.number? index none
  indices := map.indices.erase index
  mem_indices := by
    intro other
    by_cases same : other = index <;> simp [same, map.mem_indices]

def put (map : NumberMap) (index : Nat) (value : Float) : NumberMap :=
  if value == 0.0 then map.erase index else map.store index value

theorem number?_put (map : NumberMap) (index : Nat) (value : Float) (other : Nat) :
    (map.put index value).number? other =
      if other = index then SparseMapping.nonzero? value else map.number? other := by
  rw [put, SparseMapping.nonzero?]
  by_cases zero : (value == 0.0) = true
  · rw [if_pos zero, if_pos zero]
    exact Function.update_apply map.number? index none other
  · rw [if_neg zero, if_neg zero]
    exact Function.update_apply map.number? index (some value) other

def add (map : NumberMap) (index : Nat) (delta : Float) : NumberMap :=
  map.put index (map.number index + delta)

/-- A number times a factor, unless that is zero. -/
def scaled? (map : NumberMap) (factor : Float) (index : Nat) : Option Float :=
  match map.number? index with
  | none => none
  | some value => if value * factor == 0.0 then none else some (value * factor)

def scale (map : NumberMap) (factor : Float) : NumberMap where
  number? := map.scaled? factor
  indices := map.indices.filter fun index => (map.scaled? factor index).isSome
  mem_indices := by
    intro index
    rw [Finset.mem_filter, map.mem_indices, scaled?]
    cases map.number? index <;> simp

/-- The numbers in ascending order of their indices. -/
def numbers (map : NumberMap) : List Float :=
  map.indices.sort.filterMap map.number?

def norm (map : NumberMap) : Float :=
  (SparseMapping.sum (map.numbers.map fun value => value * value)).sqrt

def normalize (map : NumberMap) : NumberMap :=
  if 0.0 < map.norm then map.scale (1.0 / map.norm) else map

def ofPairs (pairs : List (Nat × Float)) : NumberMap :=
  pairs.foldl (fun map pair => map.put pair.1 pair.2) empty

/-- A mapping stands for a map when it stores the numbers of the map. -/
def Represents (map : NumberMap) (mapping : SparseMapping) : Prop :=
  ∀ index, mapping.get? index = map.number? index

namespace Represents

open SparseMapping

variable {map : NumberMap} {mapping : SparseMapping}

theorem empty_withCapacity (capacity : Nat) : empty.Represents (.withCapacity capacity) :=
  fun _ => rfl

theorem get_eq (represents : map.Represents mapping) (index : Nat) :
    mapping.get index = map.number index := by
  rw [SparseMapping.get, number, represents index]

theorem set (represents : map.Represents mapping) (sound : mapping.Sound) (index : Nat)
    (value : Float) : (map.put index value).Represents (mapping.set index value) := by
  intro other
  rw [get?_set sound, number?_put, represents other]

theorem add (represents : map.Represents mapping) (sound : mapping.Sound) (index : Nat)
    (delta : Float) : (map.add index delta).Represents (mapping.add index delta) := by
  rw [NumberMap.add, SparseMapping.add, represents.get_eq]
  exact represents.set sound index _

theorem scale (represents : map.Represents mapping) (sound : mapping.Sound) (factor : Float) :
    (map.scale factor).Represents (mapping.scale factor) := by
  intro index
  rw [get?_scale sound, represents index]
  change _ = map.scaled? factor index
  rw [scaled?]
  cases map.number? index <;> rfl

theorem indices_eq (represents : map.Represents mapping) (sound : mapping.Sound) :
    mapping.indices = map.indices.sort := by
  have ascending : mapping.indices.Pairwise (· < ·) := List.pairwise_map.mpr sound.ascending
  have same : mapping.indices.toFinset = map.indices := by
    ext index
    rw [List.mem_toFinset, map.mem_indices, ← represents index, mem_indices_iff]
  rw [← same]
  exact ((List.toFinset_sort _ (ascending.imp fun less => less.ne)).mpr
    (ascending.imp fun less => less.le)).symm

theorem values_eq (represents : map.Represents mapping) (sound : mapping.Sound) :
    mapping.values = map.numbers := by
  have lookupEq : (fun index => mapping.entries.lookup index) = map.number? := funext represents
  rw [numbers, ← represents.indices_eq sound, ← lookupEq]
  exact (filterMap_lookup sound.ascending).symm

theorem l2Norm_eq (represents : map.Represents mapping) (sound : mapping.Sound) :
    mapping.l2Norm = map.norm := by
  rw [l2Norm, norm, represents.values_eq sound]

theorem normalize (represents : map.Represents mapping) (sound : mapping.Sound) :
    map.normalize.Represents mapping.normalize := by
  rw [SparseMapping.normalize, represents.l2Norm_eq sound, NumberMap.normalize]
  split
  · exact represents.scale sound _
  · exact represents

theorem setAll (represents : map.Represents mapping) (sound : mapping.Sound)
    (pairs : List (Nat × Float)) :
    (pairs.foldl (fun map pair => map.put pair.1 pair.2) map).Represents
      (pairs.foldl (fun mapping pair => mapping.set pair.1 pair.2) mapping) := by
  induction pairs generalizing map mapping with
  | nil => exact represents
  | cons pair pairs ih =>
    exact ih (represents.set sound pair.1 pair.2) (sound.set pair.1 pair.2)

theorem ofPairs (pairs : List (Nat × Float)) :
    (NumberMap.ofPairs pairs).Represents (.ofPairs pairs) :=
  (empty_withCapacity _).setAll (withCapacity_sound _) pairs

end Represents

end NumberMap

end WordStem
