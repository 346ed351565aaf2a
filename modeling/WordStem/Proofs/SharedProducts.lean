import Mathlib
import WordStem.Proofs.CanonicalPairs

/-! # Products over shared indices

Two ascending lists of entries are read side by side, and whichever stands at the smaller index
moves on. What the lists store at the same index is then met exactly once, in ascending order. Main
statement: `dot_sums_shared`, that the product of two mappings is the sum over the indices stored in
both, for the lists of entries and for two cursors that move over the arrays in memory. -/
namespace WordStem

namespace SparseMapping

/-! ## Joining entries -/

/-- The indices that stand in both of two ascending lists, each with its two numbers. -/
def join : List (Nat × Float) → List (Nat × Float) → List (Nat × Float × Float)
  | [], _ => []
  | _, [] => []
  | (i, x) :: left, (j, y) :: right =>
    if i < j then join left ((j, y) :: right)
    else if j < i then join ((i, x) :: left) right
    else (i, x, y) :: join left right
termination_by left right => left.length + right.length

@[simp]
theorem join_nil_left (right : List (Nat × Float)) : join [] right = [] := by
  rw [join]

@[simp]
theorem join_nil_right (left : List (Nat × Float)) : join left [] = [] := by
  cases left with
  | nil => rw [join]
  | cons entry left => rw [join]; exact List.cons_ne_nil _ _

/-- An index is joined with two numbers exactly if each list has it with its own. -/
theorem mem_join_iff {left right : List (Nat × Float)}
    (leftAscending : left.Pairwise fun first second => first.1 < second.1)
    (rightAscending : right.Pairwise fun first second => first.1 < second.1)
    {index : Nat} {x y : Float} :
    (index, x, y) ∈ join left right ↔ (index, x) ∈ left ∧ (index, y) ∈ right := by
  fun_induction join left right with
  | case1 right => simp
  | case2 left nonempty => simp
  | case3 i a left j b right less ih =>
    obtain ⟨-, leftRest⟩ := List.pairwise_cons.mp leftAscending
    obtain ⟨behind, -⟩ := List.pairwise_cons.mp rightAscending
    rw [ih leftRest rightAscending, List.mem_cons (a := (index, x))]
    refine ⟨fun both => ⟨.inr both.1, both.2⟩, ?_⟩
    rintro ⟨here | later, inRight⟩
    · -- The first index on the left is below every index on the right.
      obtain rfl : index = i := congrArg Prod.fst here
      rcases List.mem_cons.mp inRight with same | further
      · exact absurd (congrArg Prod.fst same) (Nat.ne_of_lt less)
      · exact absurd (Nat.lt_trans less (behind _ further)) (Nat.lt_irrefl _)
    · exact ⟨later, inRight⟩
  | case4 i a left j b right notLess greater ih =>
    obtain ⟨behind, -⟩ := List.pairwise_cons.mp leftAscending
    obtain ⟨-, rightRest⟩ := List.pairwise_cons.mp rightAscending
    rw [ih leftAscending rightRest, List.mem_cons (a := (index, y))]
    refine ⟨fun both => ⟨both.1, .inr both.2⟩, ?_⟩
    rintro ⟨inLeft, here | later⟩
    · obtain rfl : index = j := congrArg Prod.fst here
      rcases List.mem_cons.mp inLeft with same | further
      · exact absurd (congrArg Prod.fst same) (Nat.ne_of_lt greater)
      · exact absurd (Nat.lt_trans greater (behind _ further)) (Nat.lt_irrefl _)
    · exact ⟨inLeft, later⟩
  | case5 i a left j b right notLess notGreater ih =>
    obtain rfl : i = j := Nat.le_antisymm (Nat.le_of_not_lt notGreater) (Nat.le_of_not_lt notLess)
    obtain ⟨leftBehind, leftRest⟩ := List.pairwise_cons.mp leftAscending
    obtain ⟨rightBehind, rightRest⟩ := List.pairwise_cons.mp rightAscending
    rw [List.mem_cons, ih leftRest rightRest, List.mem_cons, List.mem_cons]
    simp only [Prod.mk.injEq]
    constructor
    · rintro (⟨rfl, rfl, rfl⟩ | ⟨inLeft, inRight⟩)
      · exact ⟨.inl ⟨rfl, rfl⟩, .inl ⟨rfl, rfl⟩⟩
      · exact ⟨.inr inLeft, .inr inRight⟩
    · rintro ⟨⟨rfl, rfl⟩ | inLeft, ⟨same, rfl⟩ | inRight⟩
      · exact .inl ⟨rfl, rfl, rfl⟩
      · exact absurd (rightBehind _ inRight) (Nat.lt_irrefl _)
      · exact absurd (leftBehind _ inLeft) (same ▸ Nat.lt_irrefl _)
      · exact .inr ⟨inLeft, inRight⟩

theorem join_ascending {left right : List (Nat × Float)}
    (leftAscending : left.Pairwise fun first second => first.1 < second.1)
    (rightAscending : right.Pairwise fun first second => first.1 < second.1) :
    (join left right).Pairwise fun first second => first.1 < second.1 := by
  fun_induction join left right with
  | case1 right => exact .nil
  | case2 left nonempty => exact .nil
  | case3 i a left j b right less ih =>
    exact ih (List.pairwise_cons.mp leftAscending).2 rightAscending
  | case4 i a left j b right notLess greater ih =>
    exact ih leftAscending (List.pairwise_cons.mp rightAscending).2
  | case5 i a left j b right notLess notGreater ih =>
    obtain ⟨behind, leftRest⟩ := List.pairwise_cons.mp leftAscending
    obtain ⟨-, rightRest⟩ := List.pairwise_cons.mp rightAscending
    refine List.pairwise_cons.mpr ⟨fun entry member => ?_, ih leftRest rightRest⟩
    exact behind _ ((mem_join_iff leftRest rightRest).mp member).1

/-- Joining the other way round exchanges the numbers. -/
theorem join_swap (left right : List (Nat × Float)) :
    join right left = (join left right).map fun entry => (entry.1, entry.2.2, entry.2.1) := by
  fun_induction join left right with
  | case1 right => rw [join_nil_right, List.map_nil]
  | case2 left nonempty => rw [join_nil_left, List.map_nil]
  | case3 i a left j b right less ih =>
    rw [join, if_neg (Nat.lt_asymm less), if_pos less, ih]
  | case4 i a left j b right notLess greater ih => rw [join, if_pos greater, ih]
  | case5 i a left j b right notLess notGreater ih =>
    obtain rfl : i = j := Nat.le_antisymm (Nat.le_of_not_lt notGreater) (Nat.le_of_not_lt notLess)
    rw [join, if_neg (Nat.lt_irrefl i), if_neg (Nat.lt_irrefl i), ih, List.map_cons]

/-! ## Summing products -/

/-- The sum of the products of joined numbers, onto a sum so far. -/
def productsFrom (plus times : Float → Float → Float) (total : Float)
    (joined : List (Nat × Float × Float)) : Float :=
  joined.foldl (fun total entry => plus total (times entry.2.1 entry.2.2)) total

theorem dotFrom_eq (total : Float) (left right : List (Nat × Float)) :
    dotFrom total left right = productsFrom (· + ·) (· * ·) total (join left right) := by
  fun_induction dotFrom total left right with
  | case1 total right => rw [join_nil_left, productsFrom, List.foldl_nil]
  | case2 total left nonempty => rw [join_nil_right, productsFrom, List.foldl_nil]
  | case3 total i x left j y right less ih => rw [join, if_pos less, ih]
  | case4 total i x left j y right notLess greater ih =>
    rw [join, if_neg notLess, if_pos greater, ih]
  | case5 total i x left j y right notLess notGreater ih =>
    rw [join, if_neg notLess, if_neg notGreater, ih]
    rfl

theorem productsFrom_swap (plus : Float → Float → Float) {times : Float → Float → Float}
    (commutes : ∀ x y, times x y = times y x) (total : Float) (left right : List (Nat × Float)) :
    productsFrom plus times total (join right left) =
      productsFrom plus times total (join left right) := by
  rw [join_swap, productsFrom, List.foldl_map, productsFrom]
  congr 1
  funext total entry
  rw [commutes]

/-- The indices stored in both of two mappings, in ascending order. -/
def shared (left right : SparseMapping) : List Nat :=
  (left.indices.toFinset ∩ right.indices.toFinset).sort

section Shared

variable {left right : SparseMapping}

theorem mem_indices_iff_exists {mapping : SparseMapping} {index : Nat} :
    index ∈ mapping.indices ↔ ∃ value, (index, value) ∈ mapping.entries := by
  rw [indices, List.mem_map]
  constructor
  · rintro ⟨entry, member, rfl⟩
    exact ⟨entry.2, member⟩
  · rintro ⟨value, member⟩
    exact ⟨(index, value), member, rfl⟩

theorem shared_eq (leftSound : left.Sound) (rightSound : right.Sound) :
    shared left right = (join left.entries right.entries).map Prod.fst := by
  have ascending : ((join left.entries right.entries).map Prod.fst).Pairwise (· < ·) :=
    List.pairwise_map.mpr (join_ascending leftSound.ascending rightSound.ascending)
  have same : left.indices.toFinset ∩ right.indices.toFinset =
      ((join left.entries right.entries).map Prod.fst).toFinset := by
    ext index
    rw [Finset.mem_inter, List.mem_toFinset, List.mem_toFinset, List.mem_toFinset, List.mem_map,
      mem_indices_iff_exists, mem_indices_iff_exists]
    constructor
    · rintro ⟨⟨x, inLeft⟩, y, inRight⟩
      exact ⟨(index, x, y),
        (mem_join_iff leftSound.ascending rightSound.ascending).mpr ⟨inLeft, inRight⟩, rfl⟩
    · rintro ⟨⟨other, x, y⟩, member, rfl⟩
      obtain ⟨inLeft, inRight⟩ :=
        (mem_join_iff leftSound.ascending rightSound.ascending).mp member
      exact ⟨⟨x, inLeft⟩, y, inRight⟩
  rw [shared, same]
  exact (List.toFinset_sort _ (ascending.imp fun less => less.ne)).mpr
    (ascending.imp fun less => less.le)

/-- The indices of the join are the shared ones, and its numbers are those of the mappings. -/
theorem join_eq (leftSound : left.Sound) (rightSound : right.Sound) :
    join left.entries right.entries =
      (shared left right).map fun index => (index, left.get index, right.get index) := by
  rw [shared_eq leftSound rightSound, List.map_map]
  refine (List.map_id _).symm.trans (List.map_congr_left fun entry member => ?_)
  obtain ⟨index, x, y⟩ := entry
  obtain ⟨inLeft, inRight⟩ := (mem_join_iff leftSound.ascending rightSound.ascending).mp member
  rw [leftSound.mem_entries_iff] at inLeft
  rw [rightSound.mem_entries_iff] at inRight
  simp [SparseMapping.get, inLeft, inRight]

/-- The products of the numbers at the shared indices, added up from the lowest index to the
highest. -/
def sharedSum (plus times : Float → Float → Float) (total : Float) (left right : SparseMapping) :
    Float :=
  (shared left right).foldl
    (fun total index => plus total (times (left.get index) (right.get index))) total

theorem sharedSum_of_disjoint (apart : Disjoint left.indices.toFinset right.indices.toFinset)
    (plus times : Float → Float → Float) (total : Float) :
    sharedSum plus times total left right = total := by
  rw [sharedSum, shared, Finset.disjoint_iff_inter_eq_empty.mp apart, Finset.sort_empty,
    List.foldl_nil]

theorem productsFrom_join (leftSound : left.Sound) (rightSound : right.Sound)
    (plus times : Float → Float → Float) (total : Float) :
    productsFrom plus times total (join left.entries right.entries) =
      sharedSum plus times total left right := by
  rw [productsFrom, join_eq leftSound rightSound, List.foldl_map, sharedSum]

theorem sharedSum_comm (leftSound : left.Sound) (rightSound : right.Sound)
    (plus : Float → Float → Float) {times : Float → Float → Float}
    (commutes : ∀ x y, times x y = times y x) (total : Float) :
    sharedSum plus times total right left = sharedSum plus times total left right := by
  rw [← productsFrom_join rightSound leftSound, ← productsFrom_join leftSound rightSound,
    productsFrom_swap plus commutes]

theorem dot_eq (leftSound : left.Sound) (rightSound : right.Sound) :
    dot left right = sharedSum (· + ·) (· * ·) 0.0 left right := by
  rw [dot, dotFrom_eq, productsFrom_join leftSound rightSound]

end Shared

/-! ## The order of factors -/

section Factors

open Float.Model

theorem unpacked_mul_comm (format : Format) (left right : UnpackedFloat) :
    UnpackedFloat.mul format left right = UnpackedFloat.mul format right left := by
  have signs (first second : UnpackedFloat.Sign) : first * second = second * first := by
    cases first <;> cases second <;> rfl
  cases left <;> cases right <;> simp [UnpackedFloat.mul, signs, Nat.mul_comm, Int.add_comm]

/-- The order of two factors is of no account, also where the product is rounded. -/
theorem float_mul_comm (left right : Float) : left * right = right * left := by
  change Float.ofModel (.pack (.mul .binary64 left.toModel.unpack right.toModel.unpack)) = _
  rw [unpacked_mul_comm]
  rfl

end Factors

end SparseMapping

/-! ## Two cursors in memory -/

namespace PairedArrays

open SparseMapping

/-- Moves a cursor over the arrays on each side, adding a product wherever the cursors stand at the
same index. -/
def dotFrom? (plus times : Float → Float → Float) (left right : PairedArrays) (i j : Nat)
    (total : Float) : Option Float :=
  if i < left.indices.length ∧ j < right.indices.length then
    match left.indices[i]?, right.indices[j]? with
    | some first, some second =>
      if first < second then dotFrom? plus times left right (i + 1) j total
      else if second < first then dotFrom? plus times left right i (j + 1) total
      else
        match left.values[i]?, right.values[j]? with
        | some x, some y =>
          dotFrom? plus times left right (i + 1) (j + 1) (plus total (times x y))
        | _, _ => none
    | _, _ => none
  else
    some total
termination_by (left.indices.length - i) + (right.indices.length - j)

def dot? (plus times : Float → Float → Float) (zero : Float) (left right : PairedArrays) :
    Option Float :=
  dotFrom? plus times left right 0 0 zero

section Cursor

variable (done rest : List (Nat × Float)) (entry : Nat × Float) (room : Nat)

theorem index_at_cursor :
    (ofEntries (done ++ entry :: rest) room).indices[done.length]? = some entry.1 := by
  simp [ofEntries]

theorem value_at_cursor :
    (ofEntries (done ++ entry :: rest) room).values[done.length]? = some entry.2 := by
  simp [ofEntries]

theorem cursor_inside : done.length < (ofEntries (done ++ entry :: rest) room).indices.length := by
  simp [ofEntries]

end Cursor

/-- The cursors stand behind the entries that are done; what they add is the join of the rest. -/
theorem dotFrom?_ofEntries (plus times : Float → Float → Float)
    (leftDone left rightDone right : List (Nat × Float)) (leftRoom rightRoom : Nat)
    (total : Float) :
    dotFrom? plus times (ofEntries (leftDone ++ left) leftRoom)
        (ofEntries (rightDone ++ right) rightRoom) leftDone.length rightDone.length total =
      some (productsFrom plus times total (join left right)) := by
  fun_induction join left right generalizing leftDone rightDone total with
  | case1 right =>
    rw [dotFrom?, if_neg (by simp [ofEntries])]
    rfl
  | case2 left nonempty =>
    rw [dotFrom?, if_neg (by simp [ofEntries])]
    rfl
  | case3 i x left j y right less ih =>
    have further := ih (leftDone ++ [(i, x)]) rightDone total
    rw [List.append_assoc, List.singleton_append, List.length_append,
      List.length_singleton] at further
    rw [dotFrom?, if_pos ⟨cursor_inside .., cursor_inside ..⟩]
    simp only [index_at_cursor, if_pos less]
    exact further
  | case4 i x left j y right notLess greater ih =>
    have further := ih leftDone (rightDone ++ [(j, y)]) total
    rw [List.append_assoc, List.singleton_append, List.length_append,
      List.length_singleton] at further
    rw [dotFrom?, if_pos ⟨cursor_inside .., cursor_inside ..⟩]
    simp only [index_at_cursor, if_neg notLess, if_pos greater]
    exact further
  | case5 i x left j y right notLess notGreater ih =>
    have further := ih (leftDone ++ [(i, x)]) (rightDone ++ [(j, y)]) (plus total (times x y))
    rw [List.append_assoc, List.singleton_append, List.length_append, List.length_singleton,
      List.append_assoc, List.singleton_append, List.length_append,
      List.length_singleton] at further
    rw [dotFrom?, if_pos ⟨cursor_inside .., cursor_inside ..⟩]
    simp only [index_at_cursor, value_at_cursor, if_neg notLess, if_neg notGreater]
    exact further

theorem dot?_inMemory {left right : SparseMapping} (leftSound : left.Sound)
    (rightSound : right.Sound) (plus times : Float → Float → Float) (zero : Float) :
    dot? plus times zero left.inMemory right.inMemory =
      some (sharedSum plus times zero left right) := by
  rw [← productsFrom_join leftSound rightSound]
  exact dotFrom?_ofEntries plus times [] left.entries [] right.entries _ _ zero

end PairedArrays

namespace MappingChange

open SparseMapping

/-- The product of two mappings after any histories is the sum of the products of their numbers at
the indices stored in both, from the lowest to the highest, each of them once; so it does not depend
on the order of the mappings, and it is zero when no index is stored in both. The two cursors in
memory never read beyond the arrays, and whatever is taken for addition and multiplication, they add
up the same sum, which is symmetric when multiplication is commutative. -/
theorem dot_sums_shared (leftRoom rightRoom : Nat) (leftHistory rightHistory : List MappingChange) :
    let left := performAll (.withCapacity leftRoom) leftHistory
    let right := performAll (.withCapacity rightRoom) rightHistory
    dot left right = sharedSum (· + ·) (· * ·) 0.0 left right ∧
      dot left right = dot right left ∧
      (Disjoint left.indices.toFinset right.indices.toFinset → dot left right = 0.0) ∧
      ∀ plus times zero,
        PairedArrays.dot? plus times zero left.inMemory right.inMemory =
            some (sharedSum plus times zero left right) ∧
          ((∀ x y, times x y = times y x) →
            sharedSum plus times zero right left = sharedSum plus times zero left right) ∧
          (Disjoint left.indices.toFinset right.indices.toFinset →
            sharedSum plus times zero left right = zero) := by
  intro left right
  have leftSound : left.Sound := performAll_sound (withCapacity_sound leftRoom) leftHistory
  have rightSound : right.Sound := performAll_sound (withCapacity_sound rightRoom) rightHistory
  have summed := dot_eq leftSound rightSound
  refine ⟨summed, ?_, fun apart => ?_, fun plus times zero => ⟨?_, fun commutes => ?_, ?_⟩⟩
  · rw [summed, dot_eq rightSound leftSound]
    exact (sharedSum_comm leftSound rightSound _ float_mul_comm 0.0).symm
  · rw [summed]
    exact sharedSum_of_disjoint apart _ _ _
  · exact PairedArrays.dot?_inMemory leftSound rightSound plus times zero
  · exact sharedSum_comm leftSound rightSound plus commutes zero
  · exact fun apart => sharedSum_of_disjoint apart plus times zero

end MappingChange

end WordStem
