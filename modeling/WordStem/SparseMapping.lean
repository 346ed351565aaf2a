import WordStem.DecimalText

/-! # Sparse mappings

A sparse mapping gives a number to every index and stores only those that are not zero, in
ascending order of their indices. Whether a number is zero is decided by comparison with `0.0`,
so both zeros count as zero and a number that is not a number does not. The capacity is the
number of entries for which there is room; it grows by a fifth when an entry does not fit. -/
namespace WordStem

/-- The stored entries of a mapping and the number of entries for which there is room. -/
structure SparseMapping where
  entries : List (Nat × Float)
  capacity : Nat

namespace SparseMapping

/-- The room that a mapping has when nothing else is asked for. -/
def defaultCapacity : Nat := 11

/-- The largest room that can be asked for: entries are kept in arrays of numbers of eight bytes,
and no array takes as much as half of all addresses. -/
def largestRoom : Nat := Nat.pow 2 60 - 1

/-- The mapping without entries that has room for a number of them. -/
def withCapacity (capacity : Nat) : SparseMapping where
  entries := []
  capacity := capacity

def empty : SparseMapping :=
  withCapacity defaultCapacity

def size (mapping : SparseMapping) : Nat :=
  mapping.entries.length

def indices (mapping : SparseMapping) : List Nat :=
  mapping.entries.map Prod.fst

def values (mapping : SparseMapping) : List Float :=
  mapping.entries.map Prod.snd

def get? (mapping : SparseMapping) (index : Nat) : Option Float :=
  mapping.entries.lookup index

/-- The number at an index, which is zero where nothing is stored. -/
def get (mapping : SparseMapping) (index : Nat) : Float :=
  (mapping.get? index).getD 0.0

/-- The room for entries when one more is to be stored beside `size` others. -/
def roomFor (size capacity : Nat) : Nat :=
  if size < capacity then capacity
  else max (1.2 * size.toFloat).toUInt64.toNat (size + 1)

/-- Puts an entry into an ascending list, in place of an entry with the same index. -/
def putEntry (index : Nat) (value : Float) : List (Nat × Float) → List (Nat × Float)
  | [] => [(index, value)]
  | (first, stored) :: rest =>
    if index < first then (index, value) :: (first, stored) :: rest
    else if index = first then (index, value) :: rest
    else (first, stored) :: putEntry index value rest

/-- Stores a number at an index; zero removes the entry. -/
def set (mapping : SparseMapping) (index : Nat) (value : Float) : SparseMapping :=
  if value == 0.0 then
    { mapping with entries := mapping.entries.filter fun entry => entry.1 != index }
  else
    { entries := putEntry index value mapping.entries
      capacity :=
        if (mapping.get? index).isSome then mapping.capacity
        else roomFor mapping.size mapping.capacity }

def add (mapping : SparseMapping) (index : Nat) (delta : Float) : SparseMapping :=
  mapping.set index (mapping.get index + delta)

/-- Multiplies every stored number; those that become zero are dropped. -/
def scale (mapping : SparseMapping) (factor : Float) : SparseMapping :=
  { mapping with
    entries := mapping.entries.filterMap fun entry =>
      let value := entry.2 * factor
      if value == 0.0 then none else some (entry.1, value) }

/-- The mapping made from pairs of index and number; later pairs win over earlier ones. -/
def ofPairs (pairs : List (Nat × Float)) : SparseMapping :=
  pairs.foldl (fun mapping pair => mapping.set pair.1 pair.2) empty

/-- Whether two mappings store the same indices with equal numbers. -/
def sameEntries (left right : SparseMapping) : Bool :=
  left.entries == right.entries

/-- The description of a mapping: its entries one after the other. -/
def description (mapping : SparseMapping) : String :=
  String.join (mapping.entries.map fun entry =>
    "(" ++ toString entry.1 ++ "," ++ describeNumber entry.2 ++ ")")

end SparseMapping

end WordStem
