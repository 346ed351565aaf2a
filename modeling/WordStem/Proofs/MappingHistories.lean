import WordStem.Proofs.NumberMaps
import WordStem.Proofs.PairedArrays

/-! # Histories of sparse mappings

A mapping begins with some room and is then changed any number of times. Main statement:
`histories_refine_numberMap`, that no history faults in memory, that the two arrays stay in step,
ascending and free of zeros, and that they hold what a number map holds after the same changes. -/
namespace WordStem

inductive MappingChange where
  | set (index : Nat) (value : Float)
  | add (index : Nat) (delta : Float)
  | scale (factor : Float)
  | normalize
  /-- The mapping is replaced by one that is made from pairs. -/
  | rebuild (pairs : List (Nat × Float))

namespace MappingChange

def perform (mapping : SparseMapping) : MappingChange → SparseMapping
  | set index value => mapping.set index value
  | add index delta => mapping.add index delta
  | scale factor => mapping.scale factor
  | normalize => mapping.normalize
  | rebuild pairs => .ofPairs pairs

def perform? (arrays : PairedArrays) : MappingChange → Option PairedArrays
  | set index value => arrays.set? index value
  | add index delta => arrays.add? index delta
  | scale factor => arrays.scale? factor
  | normalize => arrays.normalize?
  | rebuild pairs => PairedArrays.ofPairs? pairs

/-- What a change means for the numbers. -/
def meaning (map : NumberMap) : MappingChange → NumberMap
  | set index value => map.put index value
  | add index delta => map.add index delta
  | scale factor => map.scale factor
  | normalize => map.normalize
  | rebuild pairs => .ofPairs pairs

/-- Whether a change stores a number, not zero, at an index that had none. -/
def StoresNew (map : NumberMap) : MappingChange → Prop
  | set index value => map.number? index = none ∧ (value == 0.0) = false
  | add index delta => map.number? index = none ∧ (map.number index + delta == 0.0) = false
  | scale _ => False
  | normalize => False
  | rebuild _ => False

def IsRebuild : MappingChange → Prop
  | rebuild _ => True
  | _ => False

variable {mapping : SparseMapping} {map : NumberMap}

/-! ## One change -/

theorem perform_sound (sound : mapping.Sound) (change : MappingChange) :
    (change.perform mapping).Sound := by
  cases change with
  | set index value => exact sound.set index value
  | add index delta => exact sound.set index _
  | scale factor => exact sound.scale factor
  | normalize => exact sound.normalize
  | rebuild pairs => exact SparseMapping.ofPairs_sound pairs

theorem perform?_inMemory (sound : mapping.Sound) (change : MappingChange) :
    change.perform? mapping.inMemory = some (change.perform mapping).inMemory := by
  cases change with
  | set index value => exact PairedArrays.set?_inMemory sound index value
  | add index delta => exact PairedArrays.add?_inMemory sound index delta
  | scale factor => exact PairedArrays.scale?_inMemory mapping factor
  | normalize => exact PairedArrays.normalize?_inMemory mapping
  | rebuild pairs => exact PairedArrays.ofPairs?_eq pairs

theorem perform_represents (sound : mapping.Sound) (represents : map.Represents mapping)
    (change : MappingChange) : (change.meaning map).Represents (change.perform mapping) := by
  cases change with
  | set index value => exact represents.set sound index value
  | add index delta => exact represents.add sound index delta
  | scale factor => exact represents.scale sound factor
  | normalize => exact represents.normalize sound
  | rebuild pairs => exact NumberMap.Represents.ofPairs pairs

/-- The room for another entry beside as many as there is room for. -/
def enlarged (size : Nat) : Nat :=
  max (1.2 * size.toFloat).toUInt64.toNat (size + 1)

theorem set_capacity_of_storesNew {index : Nat} {value : Float}
    (stores : mapping.get? index = none ∧ (value == 0.0) = false)
    (full : mapping.size = mapping.capacity) :
    (mapping.set index value).capacity = enlarged mapping.size := by
  rw [SparseMapping.set_capacity, SparseMapping.nonzero?_of_not_zero stores.2, stores.1,
    if_pos ⟨rfl, rfl⟩, SparseMapping.roomFor, if_neg (Nat.not_lt.mpr full.ge), enlarged]

theorem set_capacity_of_not_storesNew (sound : mapping.Sound) {index : Nat} {value : Float}
    (keeps : ¬ ((mapping.get? index = none ∧ (value == 0.0) = false) ∧
      mapping.size = mapping.capacity)) :
    (mapping.set index value).capacity = mapping.capacity := by
  rw [SparseMapping.set_capacity]
  split
  next stores =>
    obtain ⟨stored, kept⟩ := Option.isSome_iff_exists.mp stores.1
    have different : (value == 0.0) = false := by
      cases zero : value == 0.0 with
      | false => rfl
      | true => simp [SparseMapping.nonzero?_of_zero zero] at kept
    have fits : mapping.size < mapping.capacity :=
      lt_of_le_of_ne sound.size_le fun full => keeps ⟨⟨stores.2, different⟩, full⟩
    rw [SparseMapping.roomFor, if_pos fits]
  next => rfl

theorem normalize_capacity (mapping : SparseMapping) :
    mapping.normalize.capacity = mapping.capacity := by
  rw [SparseMapping.normalize]
  split <;> rfl

theorem capacity_of_storesNew (represents : map.Represents mapping) {change : MappingChange}
    (stores : change.StoresNew map) (full : mapping.size = mapping.capacity) :
    (change.perform mapping).capacity = enlarged mapping.size := by
  cases change with
  | set index value => exact set_capacity_of_storesNew (represents index ▸ stores) full
  | add index delta =>
    refine set_capacity_of_storesNew ?_ full
    rw [represents index, represents.get_eq]
    exact stores
  | scale factor => exact stores.elim
  | normalize => exact stores.elim
  | rebuild pairs => exact stores.elim

theorem capacity_of_not_storesNew (sound : mapping.Sound) (represents : map.Represents mapping)
    {change : MappingChange} (goesOn : ¬ change.IsRebuild)
    (keeps : ¬ (change.StoresNew map ∧ mapping.size = mapping.capacity)) :
    (change.perform mapping).capacity = mapping.capacity := by
  cases change with
  | set index value => exact set_capacity_of_not_storesNew sound (represents index ▸ keeps)
  | add index delta =>
    refine set_capacity_of_not_storesNew sound ?_
    rw [represents index, represents.get_eq]
    exact keeps
  | scale factor => rfl
  | normalize => exact normalize_capacity mapping
  | rebuild pairs => exact absurd trivial goesOn

theorem capacity_le_perform (sound : mapping.Sound) (represents : map.Represents mapping)
    {change : MappingChange} (goesOn : ¬ change.IsRebuild) :
    mapping.capacity ≤ (change.perform mapping).capacity := by
  by_cases grows : change.StoresNew map ∧ mapping.size = mapping.capacity
  · rw [capacity_of_storesNew represents grows.1 grows.2, ← grows.2, enlarged]
    exact (Nat.le_succ _).trans (Nat.le_max_right _ _)
  · exact (capacity_of_not_storesNew sound represents goesOn grows).ge

/-! ## Histories -/

def performAll (mapping : SparseMapping) (history : List MappingChange) : SparseMapping :=
  history.foldl perform mapping

def performAll? (arrays : PairedArrays) (history : List MappingChange) : Option PairedArrays :=
  history.foldlM perform? arrays

def meaningOfAll (history : List MappingChange) : NumberMap :=
  history.foldl meaning .empty

theorem performAll_sound (sound : mapping.Sound) (history : List MappingChange) :
    (performAll mapping history).Sound := by
  induction history generalizing mapping with
  | nil => exact sound
  | cons change history ih => exact ih (perform_sound sound change)

theorem performAll?_inMemory (sound : mapping.Sound) (history : List MappingChange) :
    performAll? mapping.inMemory history = some (performAll mapping history).inMemory := by
  induction history generalizing mapping with
  | nil => rfl
  | cons change history ih =>
    rw [performAll?, List.foldlM_cons, perform?_inMemory sound]
    exact ih (perform_sound sound change)

theorem performAll_represents (sound : mapping.Sound) (represents : map.Represents mapping)
    (history : List MappingChange) :
    (history.foldl meaning map).Represents (performAll mapping history) := by
  induction history generalizing mapping map with
  | nil => exact represents
  | cons change history ih =>
    exact ih (perform_sound sound change) (perform_represents sound represents change)

/-- The arrays after any history from any starting room: they hold the indices in ascending order
with their numbers, never zero, within their capacity, and reading an index answers the number of
the map. Another change that is not a rebuilding never takes room away, and it makes room exactly
when it stores at a new index while the arrays are full. -/
theorem histories_refine_numberMap (room : Nat) (history : List MappingChange) :
    ∃ arrays, performAll? (.withRoom room) history = some arrays ∧
      arrays = (performAll (.withCapacity room) history).inMemory ∧
      arrays.indices.length = arrays.values.length ∧
      arrays.indices.Pairwise (· < ·) ∧
      (∀ value ∈ arrays.values, (value == 0.0) = false) ∧
      arrays.indices.length ≤ arrays.capacity ∧
      arrays.indices = (meaningOfAll history).indices.sort ∧
      arrays.values = (meaningOfAll history).numbers ∧
      (∀ index, arrays.get? index = some ((meaningOfAll history).number index)) ∧
      ∀ change : MappingChange, ¬ change.IsRebuild →
        ∃ next, change.perform? arrays = some next ∧ arrays.capacity ≤ next.capacity ∧
          (change.StoresNew (meaningOfAll history) ∧ arrays.indices.length = arrays.capacity →
            next.capacity = enlarged arrays.indices.length) ∧
          (¬ (change.StoresNew (meaningOfAll history) ∧
              arrays.indices.length = arrays.capacity) →
            next.capacity = arrays.capacity) := by
  have starts := SparseMapping.withCapacity_sound room
  have sound := performAll_sound starts history
  have represents : (meaningOfAll history).Represents (performAll (.withCapacity room) history) :=
    performAll_represents starts (.empty_withCapacity room) history
  have performed := performAll?_inMemory starts history
  generalize performAll (.withCapacity room) history = mapping at sound represents performed ⊢
  have sizeEq : mapping.inMemory.indices.length = mapping.size := List.length_map _
  have roomEq (mapping : SparseMapping) : mapping.inMemory.capacity = mapping.capacity :=
    Nat.min_self _
  refine ⟨mapping.inMemory, performed, rfl, ?_, List.pairwise_map.mpr sound.ascending, ?_, ?_,
    represents.indices_eq sound, represents.values_eq sound, ?_, ?_⟩
  · rw [sizeEq]
    exact (List.length_map _).symm
  · intro value member
    obtain ⟨entry, stored, rfl⟩ := List.mem_map.mp member
    exact sound.not_zero entry stored
  · rw [sizeEq, roomEq]
    exact sound.size_le
  · intro index
    rw [PairedArrays.get?_inMemory sound, represents.get_eq]
  · intro change goesOn
    refine ⟨_, perform?_inMemory sound change, ?_, ?_, ?_⟩
    · rw [roomEq, roomEq]
      exact capacity_le_perform sound represents goesOn
    · rw [sizeEq, roomEq, roomEq]
      exact fun grows => capacity_of_storesNew represents grows.1 grows.2
    · rw [sizeEq, roomEq, roomEq]
      exact capacity_of_not_storesNew sound represents goesOn

end MappingChange

end WordStem
