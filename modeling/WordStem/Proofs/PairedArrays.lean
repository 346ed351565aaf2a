import WordStem.Proofs.SparseEntries

/-! # Mappings in two arrays

In memory a mapping is an array of indices beside an array of numbers, each with its own room. A
number belongs to the index at the same offset, so every operation has to move both arrays in the
same way. Reads and writes are under the bounds that the machine checks, and an insertion finds
room; an operation that breaks one of these has no result here. Each operation is shown to have a
result on the arrays of a sound mapping, and the result are the arrays of the changed mapping. -/
namespace WordStem

/-- A mapping as it lies in memory. -/
structure PairedArrays where
  indices : List Nat
  values : List Float
  indexRoom : Nat
  valueRoom : Nat

namespace PairedArrays

def withRoom (room : Nat) : PairedArrays where
  indices := []
  values := []
  indexRoom := room
  valueRoom := room

def capacity (arrays : PairedArrays) : Nat :=
  min arrays.indexRoom arrays.valueRoom

/-! ## Operations -/

/-- Where an index stands, or where it would have to be inserted. -/
inductive Place where
  | found (offset : Nat)
  | missing (offset : Nat)

/-- Bisects the indices from `low` up to `high`. -/
def bisect? (indices : List Nat) (index low high : Nat) : Option Place :=
  if low < high then
    match indices[(low + high) / 2]? with
    | none => none
    | some other =>
      if other = index then some (.found ((low + high) / 2))
      else if other < index then bisect? indices index ((low + high) / 2 + 1) high
      else bisect? indices index low ((low + high) / 2)
  else
    some (.missing low)
termination_by high - low

def place? (arrays : PairedArrays) (index : Nat) : Option Place :=
  bisect? arrays.indices index 0 arrays.indices.length

def get? (arrays : PairedArrays) (index : Nat) : Option Float := do
  match ← arrays.place? index with
  | .found offset => arrays.values[offset]?
  | .missing _ => some 0.0

def removeAt? (arrays : PairedArrays) (offset : Nat) : Option PairedArrays :=
  if offset < arrays.indices.length ∧ offset < arrays.values.length then
    some { arrays with
      indices := arrays.indices.eraseIdx offset
      values := arrays.values.eraseIdx offset }
  else
    none

def writeAt? (arrays : PairedArrays) (offset : Nat) (value : Float) : Option PairedArrays :=
  if offset < arrays.values.length then
    some { arrays with values := arrays.values.set offset value }
  else
    none

/-- Inserts into both arrays, which must have room for it. -/
def insertAt? (arrays : PairedArrays) (offset index : Nat) (value : Float) :
    Option PairedArrays :=
  if (offset ≤ arrays.indices.length ∧ arrays.indices.length < arrays.indexRoom) ∧
      offset ≤ arrays.values.length ∧ arrays.values.length < arrays.valueRoom then
    some { arrays with
      indices := arrays.indices.insertIdx offset index
      values := arrays.values.insertIdx offset value }
  else
    none

/-- The room of an array of `size` elements after room for `more` was asked for. -/
def reserve (room size more : Nat) : Nat :=
  if more ≤ room - size then room else size + more

def growIfFull (arrays : PairedArrays) : PairedArrays :=
  let size := arrays.indices.length
  if size < arrays.capacity then arrays
  else
    let target := max (1.2 * size.toFloat).toUInt64.toNat (size + 1)
    { arrays with
      indexRoom := reserve arrays.indexRoom arrays.indices.length (target - size)
      valueRoom := reserve arrays.valueRoom arrays.values.length (target - size) }

def set? (arrays : PairedArrays) (index : Nat) (value : Float) : Option PairedArrays := do
  match ← arrays.place? index with
  | .found offset =>
    if value == 0.0 then arrays.removeAt? offset else arrays.writeAt? offset value
  | .missing offset =>
    if value == 0.0 then return arrays else arrays.growIfFull.insertAt? offset index value

def add? (arrays : PairedArrays) (index : Nat) (delta : Float) : Option PairedArrays := do
  let current ← arrays.get? index
  arrays.set? index (current + delta)

def writePairAt? (arrays : PairedArrays) (offset index : Nat) (value : Float) :
    Option PairedArrays :=
  if offset < arrays.indices.length ∧ offset < arrays.values.length then
    some { arrays with
      indices := arrays.indices.set offset index
      values := arrays.values.set offset value }
  else
    none

/-- Scales the entries from an offset on and moves those that are not zero to the front, behind the
entries kept so far. Answers how many are kept in the end. -/
def compact? (factor : Float) :
    (remaining offset kept : Nat) → PairedArrays → Option (Nat × PairedArrays)
  | 0, _, kept, arrays => some (kept, arrays)
  | remaining + 1, offset, kept, arrays => do
    let value := (← arrays.values[offset]?) * factor
    if value == 0.0 then
      compact? factor remaining (offset + 1) kept arrays
    else
      let index ← arrays.indices[offset]?
      compact? factor remaining (offset + 1) (kept + 1) (← arrays.writePairAt? kept index value)

def scale? (arrays : PairedArrays) (factor : Float) : Option PairedArrays := do
  let (kept, arrays) ← compact? factor arrays.indices.length 0 0 arrays
  return { arrays with
    indices := arrays.indices.take kept
    values := arrays.values.take kept }

def normalize? (arrays : PairedArrays) : Option PairedArrays :=
  let norm := (SparseMapping.sum (arrays.values.map fun value => value * value)).sqrt
  if 0.0 < norm then arrays.scale? (1.0 / norm) else some arrays

def ofPairs? (pairs : List (Nat × Float)) : Option PairedArrays :=
  pairs.foldlM (fun arrays pair => arrays.set? pair.1 pair.2)
    (withRoom SparseMapping.defaultCapacity)

/-- The arrays that hold given entries. -/
def ofEntries (entries : List (Nat × Float)) (room : Nat) : PairedArrays where
  indices := entries.map Prod.fst
  values := entries.map Prod.snd
  indexRoom := room
  valueRoom := room

end PairedArrays

def SparseMapping.inMemory (mapping : SparseMapping) : PairedArrays :=
  .ofEntries mapping.entries mapping.capacity

namespace PairedArrays

open SparseMapping

/-! ## Finding an index -/

section Finding

variable {index : Nat} {entries front back : List (Nat × Float)} {stored? : Option Float}

/-- The place of an index behind `offset` entries. -/
def Place.behind (offset : Nat) : Option Float → Place
  | some _ => .found offset
  | none => .missing offset

/-- An index that is read tells on which side of the cut it was read. -/
theorem side_of_read (cut : CutAt index entries front stored? back) {offset other : Nat}
    (read : (entries.map Prod.fst)[offset]? = some other) :
    (other < index ∧ offset < front.length) ∨
      (other = index ∧ offset = front.length ∧ stored?.isSome) ∨
      (index < other ∧ front.length + stored?.toList.length ≤ offset) := by
  rw [List.getElem?_map] at read
  obtain ⟨entry, readEntry, rfl⟩ := Option.map_eq_some_iff.mp read
  rw [cut.entries_eq, List.append_assoc] at readEntry
  by_cases before : offset < front.length
  · rw [List.getElem?_append_left before] at readEntry
    exact .inl ⟨cut.front_lt entry (List.mem_of_getElem? readEntry), before⟩
  · rw [List.getElem?_append_right (Nat.le_of_not_lt before)] at readEntry
    cases stored? with
    | none =>
      rw [entryAt_none, List.nil_append] at readEntry
      refine .inr (.inr ⟨cut.lt_back entry (List.mem_of_getElem? readEntry), ?_⟩)
      exact Nat.le_of_not_lt before
    | some stored =>
      rw [entryAt_some, List.singleton_append] at readEntry
      cases beyond : offset - front.length with
      | zero =>
        rw [beyond, List.getElem?_cons_zero] at readEntry
        obtain rfl := Option.some.inj readEntry
        exact .inr (.inl ⟨rfl, by omega, rfl⟩)
      | succ further =>
        rw [beyond, List.getElem?_cons_succ] at readEntry
        refine .inr (.inr ⟨cut.lt_back entry (List.mem_of_getElem? readEntry), ?_⟩)
        simp only [Option.toList_some, List.length_singleton]
        omega

theorem bisect?_eq (cut : CutAt index entries front stored? back) {low high : Nat}
    (low_le : low ≤ front.length) (le_high : front.length + stored?.toList.length ≤ high)
    (inside : high ≤ entries.length) :
    bisect? (entries.map Prod.fst) index low high = some (.behind front.length stored?) := by
  fun_induction bisect? (entries.map Prod.fst) index low high with
  | case1 low high less absent =>
    rw [List.getElem?_eq_none_iff, List.length_map] at absent
    omega
  | case2 low high less found =>
    rcases side_of_read cut found with ⟨less, -⟩ | ⟨-, here, present⟩ | ⟨less, -⟩
    · exact absurd less (Nat.lt_irrefl index)
    · obtain ⟨stored, rfl⟩ := Option.isSome_iff_exists.mp present
      rw [here, Place.behind]
    · exact absurd less (Nat.lt_irrefl index)
  | case3 low high less other found different below ih =>
    rcases side_of_read cut found with ⟨-, before⟩ | ⟨same, -⟩ | ⟨above, -⟩
    · exact ih before le_high inside
    · exact absurd same different
    · exact absurd below (Nat.lt_asymm above)
  | case4 low high less other found different notBelow ih =>
    rcases side_of_read cut found with ⟨below, -⟩ | ⟨same, -⟩ | ⟨-, behind⟩
    · exact absurd below notBelow
    · exact absurd same different
    · exact ih low_le behind (by omega)
  | case5 low high done =>
    cases stored? with
    | some stored => simp at le_high; omega
    | none =>
      have ends : low = front.length := by simp at le_high; omega
      rw [ends, Place.behind]

theorem place?_ofEntries (cut : CutAt index entries front stored? back) (room : Nat) :
    (ofEntries entries room).place? index = some (.behind front.length stored?) := by
  have length : front.length + stored?.toList.length ≤ entries.length := by
    simp [cut.entries_eq, entryAt]
  rw [place?, ofEntries, List.length_map]
  exact bisect?_eq cut (Nat.zero_le _) length (Nat.le_refl _)

theorem get?_ofEntries (cut : CutAt index entries front stored? back) (room : Nat) :
    (ofEntries entries room).get? index = some (stored?.getD 0.0) := by
  rw [get?, place?_ofEntries cut]
  cases stored? with
  | none => rfl
  | some stored => simp [Place.behind, ofEntries, cut.entries_eq]

end Finding

/-! ## Changing one entry -/

section Changing

variable {front back : List (Nat × Float)}

theorem removeAt?_ofEntries (entry : Nat × Float) (room : Nat) :
    (ofEntries (front ++ entry :: back) room).removeAt? front.length =
      some (ofEntries (front ++ back) room) := by
  rw [removeAt?, if_pos (by simp [ofEntries])]
  simp [ofEntries, List.eraseIdx_append_of_length_le]

theorem writeAt?_ofEntries (index : Nat) (stored value : Float) (room : Nat) :
    (ofEntries (front ++ (index, stored) :: back) room).writeAt? front.length value =
      some (ofEntries (front ++ (index, value) :: back) room) := by
  rw [writeAt?, if_pos (by simp [ofEntries])]
  simp [ofEntries]

theorem insertIdx_length_append {Element : Type} (front back : List Element) (element : Element) :
    (front ++ back).insertIdx front.length element = front ++ element :: back := by
  induction front with
  | nil => rfl
  | cons first rest ih => simp [ih]

theorem insertAt?_ofEntries (index : Nat) (value : Float) {room : Nat}
    (fits : (front ++ back).length < room) :
    (ofEntries (front ++ back) room).insertAt? front.length index value =
      some (ofEntries (front ++ (index, value) :: back) room) := by
  have indices := insertIdx_length_append (front.map Prod.fst) (back.map Prod.fst) index
  have values := insertIdx_length_append (front.map Prod.snd) (back.map Prod.snd) value
  rw [List.length_map] at indices values
  rw [insertAt?, if_pos (by simpa [ofEntries] using fits)]
  simp [ofEntries, indices, values]

theorem growIfFull_ofEntries {entries : List (Nat × Float)} {room : Nat}
    (fits : entries.length ≤ room) :
    (ofEntries entries room).growIfFull =
      ofEntries entries (roomFor entries.length room) := by
  simp only [growIfFull, roomFor, capacity, ofEntries, List.length_map, Nat.min_self, reserve]
  split
  · rfl
  · next full =>
    -- The array is full, so the room asked for is made, and it is the whole target.
    have target := Nat.le_max_right (1.2 * entries.length.toFloat).toUInt64.toNat
      (entries.length + 1)
    generalize max (1.2 * entries.length.toFloat).toUInt64.toNat (entries.length + 1) = goal
      at target ⊢
    rw [if_neg (by omega)]
    congr 1 <;> omega

end Changing

/-- Storing a number has a result in memory, and the arrays hold the changed mapping. -/
theorem set?_inMemory {mapping : SparseMapping} (sound : mapping.Sound) (index : Nat)
    (value : Float) :
    mapping.inMemory.set? index value = some (mapping.set index value).inMemory := by
  obtain ⟨front, stored?, back, cut⟩ := exists_cutAt index sound.ascending
  have placed := place?_ofEntries cut mapping.capacity
  have storedEq : mapping.get? index = stored? := cut.lookup_eq
  have fits : mapping.entries.length ≤ mapping.capacity := sound.size_le
  rw [set?, inMemory, placed, inMemory, set_entries cut, set_capacity, storedEq]
  rw [cut.entries_eq] at fits ⊢
  cases zero : value == 0.0 with
  | true =>
    rw [nonzero?_of_zero zero]
    cases stored? with
    | none => simp [Place.behind]
    | some stored => simpa [Place.behind, zero] using removeAt?_ofEntries (index, stored) _
  | false =>
    rw [nonzero?_of_not_zero zero]
    cases stored? with
    | none =>
      have room := size_lt_roomFor (front ++ back).length mapping.capacity
      rw [entryAt_none, List.append_nil] at fits
      simpa [Place.behind, zero, size, cut.entries_eq, growIfFull_ofEntries fits] using
        insertAt?_ofEntries index value room
    | some stored =>
      simpa [Place.behind, zero] using writeAt?_ofEntries index stored value mapping.capacity

theorem get?_inMemory {mapping : SparseMapping} (sound : mapping.Sound) (index : Nat) :
    mapping.inMemory.get? index = some (mapping.get index) := by
  obtain ⟨front, stored?, back, cut⟩ := exists_cutAt index sound.ascending
  rw [inMemory, get?_ofEntries cut, SparseMapping.get, SparseMapping.get?, cut.lookup_eq]

theorem add?_inMemory {mapping : SparseMapping} (sound : mapping.Sound) (index : Nat)
    (delta : Float) :
    mapping.inMemory.add? index delta = some (mapping.add index delta).inMemory := by
  rw [add?, get?_inMemory sound, SparseMapping.add]
  exact set?_inMemory sound index _

/-! ## Scaling in place -/

theorem writePairAt?_ofEntries (done stale rest : List (Nat × Float)) (head next : Nat × Float)
    (room : Nat) :
    (ofEntries (done ++ (stale ++ head :: rest)) room).writePairAt? done.length next.1 next.2 =
      some (ofEntries (done ++ [next] ++ ((stale ++ [head]).tail ++ rest)) room) := by
  have inside : done.length < (done ++ (stale ++ head :: rest)).length := by
    simp only [List.length_append, List.length_cons]
    omega
  rw [writePairAt?, if_pos (by simpa only [ofEntries, List.length_map, and_self] using inside)]
  cases stale <;> simp [ofEntries]

/-- Between the entries that are kept and those still to be scaled lie stale ones, which the
compaction overwrites one after the other. -/
theorem compact?_ofEntries (factor : Float) (rest done stale : List (Nat × Float)) (room : Nat) :
    ∃ left, compact? factor rest.length (done.length + stale.length) done.length
        (ofEntries (done ++ (stale ++ rest)) room) =
      let kept := done ++ rest.filterMap fun entry =>
        (nonzero? (entry.2 * factor)).map fun value => (entry.1, value)
      some (kept.length, ofEntries (kept ++ left) room) := by
  induction rest generalizing done stale with
  | nil => exact ⟨stale, by simp [compact?]⟩
  | cons head rest ih =>
    have readIndex : (ofEntries (done ++ (stale ++ head :: rest)) room).indices[
        done.length + stale.length]? = some head.1 := by
      simp [ofEntries]
    have readValue : (ofEntries (done ++ (stale ++ head :: rest)) room).values[
        done.length + stale.length]? = some head.2 := by
      simp [ofEntries]
    cases zero : head.2 * factor == 0.0 with
    | true =>
      obtain ⟨left, ends⟩ := ih done (stale ++ [head])
      refine ⟨left, ?_⟩
      rw [List.length_append, List.length_singleton, List.append_assoc] at ends
      simp only [List.length_cons, compact?, readValue, Option.bind_eq_bind, Option.bind_some,
        zero, if_true, List.filterMap_cons, nonzero?_of_zero zero, Option.map_none]
      exact ends
    | false =>
      obtain ⟨left, ends⟩ := ih (done ++ [(head.1, head.2 * factor)]) (stale ++ [head]).tail
      refine ⟨left, ?_⟩
      have offsetEq : (done ++ [(head.1, head.2 * factor)]).length +
          (stale ++ [head]).tail.length = done.length + stale.length + 1 := by
        simp
        omega
      rw [offsetEq, List.length_append, List.length_singleton] at ends
      simp only [List.length_cons, compact?, readValue, readIndex, Option.bind_eq_bind,
        Option.bind_some, zero, Bool.false_eq_true, if_false,
        writePairAt?_ofEntries done stale rest head (head.1, head.2 * factor) room]
      rw [ends, List.filterMap_cons, nonzero?_of_not_zero zero]
      simp

theorem scale?_inMemory (mapping : SparseMapping) (factor : Float) :
    mapping.inMemory.scale? factor = some (mapping.scale factor).inMemory := by
  obtain ⟨left, ends⟩ := compact?_ofEntries factor mapping.entries [] [] mapping.capacity
  simp only [List.length_nil, List.nil_append, Nat.add_zero] at ends
  rw [inMemory, inMemory, scale_entries, scale?, ofEntries, List.length_map]
  change (compact? factor mapping.entries.length 0 0 (ofEntries mapping.entries mapping.capacity)
    >>= _) = _
  rw [ends]
  simp [ofEntries, SparseMapping.scale]

theorem normalize?_inMemory (mapping : SparseMapping) :
    mapping.inMemory.normalize? = some mapping.normalize.inMemory := by
  rw [normalize?, SparseMapping.normalize]
  change (if 0.0 < mapping.l2Norm then _ else _) = _
  split
  · exact scale?_inMemory mapping _
  · rfl

/-! ## Rebuilding -/

theorem setAll_inMemory {mapping : SparseMapping} (sound : mapping.Sound)
    (pairs : List (Nat × Float)) :
    pairs.foldlM (fun arrays pair => arrays.set? pair.1 pair.2) mapping.inMemory =
      some (pairs.foldl (fun mapping pair => mapping.set pair.1 pair.2) mapping).inMemory := by
  induction pairs generalizing mapping with
  | nil => rfl
  | cons pair pairs ih =>
    rw [List.foldlM_cons, set?_inMemory sound, Option.bind_eq_bind, Option.bind_some,
      ih (sound.set pair.1 pair.2), List.foldl_cons]

theorem ofPairs?_eq (pairs : List (Nat × Float)) :
    ofPairs? pairs = some (ofPairs pairs).inMemory :=
  setAll_inMemory (withCapacity_sound defaultCapacity) pairs

end PairedArrays

end WordStem
