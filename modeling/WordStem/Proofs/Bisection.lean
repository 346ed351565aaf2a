import WordStem.AffixSearch

/-! # Bisecting an ordered table of keys

The search through a table compares the text with few bytes of few keys. What it relies on is
that all keys between two others share what those two share with the text. Main statement:
`bisect_locates`, that on ascending keys the bisection ends at the last key that is not above the
text and knows how many of its bytes agree. -/
namespace WordStem.AffixTable

variable {text key : List UInt8}

/-! ## Comparing a text with a key -/

theorem readAgainst_snd (text key : List UInt8) :
    (readAgainst text key).2 = decide (text < key) := by
  induction text generalizing key with
  | nil => cases key <;> simp [readAgainst]
  | cons byte text ih =>
    cases key with
    | nil => simp [readAgainst]
    | cons expected key =>
      by_cases same : byte = expected
      · subst same
        simp [readAgainst, ih key]
      · simp [readAgainst, same, List.cons_lt_cons_iff]

/-- A comparison counts the bytes that the text and the key share from the start. -/
theorem le_readAgainst_fst_iff {known : Nat} :
    known ≤ (readAgainst text key).1 ↔
      ∃ shared, shared.length = known ∧ shared <+: text ∧ shared <+: key := by
  induction text generalizing key known with
  | nil =>
    have none : (readAgainst [] key).1 = 0 := by cases key <;> rfl
    rw [none, Nat.le_zero]
    constructor
    · rintro rfl
      exact ⟨[], rfl, List.nil_prefix, List.nil_prefix⟩
    · rintro ⟨shared, rfl, inText, -⟩
      rw [List.prefix_nil.mp inText, List.length_nil]
  | cons byte text ih =>
    cases key with
    | nil => simp [readAgainst, eq_comm]
    | cons expected key =>
      cases known with
      | zero => simp
      | succ known =>
        by_cases same : byte = expected
        · subst same
          simp only [readAgainst, if_true, Nat.add_le_add_iff_right, ih]
          constructor
          · rintro ⟨shared, rfl, inText, inKey⟩
            exact ⟨byte :: shared, rfl, (List.prefix_cons_inj byte).mpr inText,
              (List.prefix_cons_inj byte).mpr inKey⟩
          · rintro ⟨_ | ⟨head, shared⟩, length, inText, inKey⟩
            · simp at length
            · exact ⟨shared, by simpa using length, (List.cons_prefix_cons.mp inText).2,
                (List.cons_prefix_cons.mp inKey).2⟩
        · simp only [readAgainst, same, if_false, Nat.le_zero_eq, Nat.add_one_ne_zero, false_iff]
          rintro ⟨_ | ⟨head, shared⟩, length, inText, inKey⟩
          · simp at length
          · exact same ((List.cons_prefix_cons.mp inText).1.symm.trans
              (List.cons_prefix_cons.mp inKey).1)

/-- The text starts with the beginning of a key exactly when so many bytes of the key agree. -/
theorem isPrefix_iff_of_isPrefix {shorter : List UInt8} (begins : shorter <+: key) :
    shorter <+: text ↔ shorter.length ≤ (readAgainst text key).1 := by
  rw [le_readAgainst_fst_iff]
  constructor
  · intro starts
    exact ⟨shorter, rfl, starts, begins⟩
  · rintro ⟨shared, length, inText, inKey⟩
    have same : shared = shorter :=
      (List.prefix_of_prefix_length_le inKey begins (Nat.le_of_eq length)).eq_of_length length
    rwa [← same]

/-- Bytes that are known to agree need not be compared again. -/
theorem compareBeyond_eq_readAgainst {known : Nat} (agree : known ≤ (readAgainst text key).1) :
    compareBeyond known text key = readAgainst text key := by
  obtain ⟨shared, rfl, ⟨text, rfl⟩, ⟨key, rfl⟩⟩ := le_readAgainst_fst_iff.mp agree
  clear agree
  have skip : readAgainst (shared ++ text) (shared ++ key) =
      (shared.length + (readAgainst text key).1, (readAgainst text key).2) := by
    induction shared with
    | nil => simp
    | cons byte shared ih =>
      simp only [List.cons_append, readAgainst, if_true, ih, List.length_cons]
      congr 1
      omega
  simp [compareBeyond, skip]

/-- All texts between two others share what those two share. -/
theorem isPrefix_of_between {shared low middle high : List UInt8} (inLow : shared <+: low)
    (inHigh : shared <+: high) (aboveLow : low ≤ middle) (belowHigh : middle ≤ high) :
    shared <+: middle := by
  induction shared generalizing low middle high with
  | nil => exact List.nil_prefix
  | cons byte shared ih =>
    obtain ⟨low, rfl⟩ := inLow
    obtain ⟨high, rfl⟩ := inHigh
    cases middle with
    | nil => simp at aboveLow
    | cons head middle =>
      simp only [List.cons_append, List.cons_le_cons_iff] at aboveLow belowHigh
      -- A head above the shared byte is too great for the upper text, one below it too small.
      rcases aboveLow with less | ⟨rfl, aboveLow⟩
      · rcases belowHigh with greater | ⟨rfl, -⟩
        · exact absurd greater (UInt8.lt_asymm less)
        · exact absurd less (UInt8.lt_irrefl _)
      · rcases belowHigh with greater | ⟨-, belowHigh⟩
        · exact absurd greater (UInt8.lt_irrefl _)
        · exact (List.prefix_cons_inj byte).mpr
            (ih (List.prefix_append _ _) (List.prefix_append _ _) aboveLow belowHigh)

/-! ## The bisection -/

def Ascending (keys : Array (List UInt8)) : Prop :=
  ∀ earlier later, earlier < later → later < keys.size →
    keys.getD earlier [] < keys.getD later []

/-- What is known while the interval from `low` to `high` is halved. Both ends count as sharing
nothing with the text until they have been compared with it. -/
structure Narrowed (keys : Array (List UInt8)) (text : List UInt8)
    (low high sharedLow sharedHigh : Nat) : Prop where
  low_lt_high : low < high
  high_le_size : high ≤ keys.size
  atLow : low = 0 ∧ sharedLow = 0 ∨
    keys.getD low [] ≤ text ∧ sharedLow = (readAgainst text (keys.getD low [])).1
  atHigh : high = keys.size ∧ sharedHigh = 0 ∨
    text < keys.getD high [] ∧ sharedHigh = (readAgainst text (keys.getD high [])).1

/-- The entry at an index is the last one that is not above the text, and `agreed` bytes of it
agree with the text. If all entries are above the text, it is the first one. -/
structure Located (keys : Array (List UInt8)) (text : List UInt8) (index agreed : Nat) :
    Prop where
  index_lt_size : index < keys.size
  lt_of_later : ∀ later, index < later → later < keys.size → text < keys.getD later []
  agreed_eq : keys.getD index [] ≤ text → agreed = (readAgainst text (keys.getD index [])).1
  eq_zero_of_lt : text < keys.getD index [] → index = 0 ∧ agreed = 0

variable {keys : Array (List UInt8)} {low high sharedLow sharedHigh : Nat}

namespace Narrowed

theorem start (nonempty : 0 < keys.size) : Narrowed keys text 0 keys.size 0 0 :=
  ⟨nonempty, Nat.le_refl _, .inl ⟨rfl, rfl⟩, .inl ⟨rfl, rfl⟩⟩

/-- What both ends share with the text is shared by the entries between them. -/
theorem shared_le_readAgainst_fst (narrowed : Narrowed keys text low high sharedLow sharedHigh)
    (ascending : Ascending keys) {middle : Nat} (aboveLow : low ≤ middle)
    (belowHigh : middle < high) :
    min sharedLow sharedHigh ≤ (readAgainst text (keys.getD middle [])).1 := by
  rcases narrowed.atLow with ⟨-, none⟩ | ⟨lowLe, sharedEq⟩
  · omega
  rcases narrowed.atHigh with ⟨-, none⟩ | ⟨highGt, otherEq⟩
  · omega
  obtain ⟨shared, length, inText, inLow⟩ := le_readAgainst_fst_iff.mp
    (Nat.le_trans (Nat.min_le_left sharedLow sharedHigh) (Nat.le_of_eq sharedEq))
  obtain ⟨other, otherLength, otherInText, inHigh⟩ := le_readAgainst_fst_iff.mp
    (Nat.le_trans (Nat.min_le_right sharedLow sharedHigh) (Nat.le_of_eq otherEq))
  have same : other = shared :=
    (List.prefix_of_prefix_length_le otherInText inText (by omega)).eq_of_length (by omega)
  rw [le_readAgainst_fst_iff]
  refine ⟨shared, length, inText, isPrefix_of_between inLow (same ▸ inHigh) ?_ ?_⟩
  · rcases Nat.eq_or_lt_of_le aboveLow with rfl | less
    · exact List.le_refl _
    · exact List.le_of_lt (ascending low middle less (by have := narrowed.high_le_size; omega))
  · rcases Nat.eq_or_lt_of_le narrowed.high_le_size with rfl | inside
    · exact absurd highGt (by simp [Array.getD])
    · exact List.le_of_lt (ascending middle high belowHigh inside)

/-- Comparing an entry between the ends while skipping what both ends share is a full
comparison. -/
theorem of_compareBeyond (narrowed : Narrowed keys text low high sharedLow sharedHigh)
    (ascending : Ascending keys) {middle agreed : Nat} {below : Bool} (aboveLow : low ≤ middle)
    (belowHigh : middle < high)
    (compared : compareBeyond (min sharedLow sharedHigh) text (keys.getD middle []) =
      (agreed, below)) :
    agreed = (readAgainst text (keys.getD middle [])).1 ∧
      (below = true ↔ text < keys.getD middle []) := by
  rw [compareBeyond_eq_readAgainst
    (narrowed.shared_le_readAgainst_fst ascending aboveLow belowHigh)] at compared
  refine ⟨by rw [compared], ?_⟩
  have decided : below = decide (text < keys.getD middle []) := by
    rw [← readAgainst_snd, compared]
  rw [decided, decide_eq_true_iff]

theorem lt_of_high_le (narrowed : Narrowed keys text low high sharedLow sharedHigh)
    (ascending : Ascending keys) {later : Nat} (fromHigh : high ≤ later)
    (inside : later < keys.size) : text < keys.getD later [] := by
  rcases narrowed.atHigh with ⟨rfl, -⟩ | ⟨highGt, -⟩
  · omega
  · rcases Nat.eq_or_lt_of_le fromHigh with rfl | less
    · exact highGt
    · exact List.lt_trans highGt (ascending high later less inside)

end Narrowed

/-- On ascending keys the bisection locates the last key that is not above the text. -/
theorem bisect_locates (ascending : Ascending keys)
    (narrowed : Narrowed keys text low high sharedLow sharedHigh) :
    Located keys text (bisect keys text low high sharedLow sharedHigh).1
      (bisect keys text low high sharedLow sharedHigh).2 := by
  have lowLt := narrowed.low_lt_high
  have highLe := narrowed.high_le_size
  fun_induction bisect keys text low high sharedLow sharedHigh with
  | case1 high sharedLow sharedHigh agreed single compared =>
    -- The first entry alone is left, and it is above the text.
    have above := (narrowed.of_compareBeyond ascending (Nat.le_refl 0) lowLt compared).2.mp rfl
    refine ⟨by omega, fun later behind => narrowed.lt_of_high_le ascending (by omega),
      fun notAbove => absurd above notAbove, fun _ => ⟨rfl, ?_⟩⟩
    rcases narrowed.atLow with ⟨-, none⟩ | ⟨notAbove, -⟩
    · exact none
    · exact absurd above notAbove
  | case2 high sharedLow sharedHigh agreed below compared notBelow single =>
    obtain ⟨agreedEq, belowIff⟩ :=
      narrowed.of_compareBeyond ascending (Nat.le_refl 0) lowLt compared
    exact ⟨by omega, fun later behind => narrowed.lt_of_high_le ascending (by omega),
      fun _ => agreedEq, fun above => absurd (belowIff.mpr above) notBelow⟩
  | case3 low high sharedLow sharedHigh single notFirst =>
    rcases narrowed.atLow with ⟨first, -⟩ | ⟨notAbove, sharedEq⟩
    · exact absurd first notFirst
    · exact ⟨by omega, fun later behind => narrowed.lt_of_high_le ascending (by omega),
        fun _ => sharedEq, fun above => absurd above notAbove⟩
  | case4 low high sharedLow sharedHigh wide middle agreed compared ih =>
    obtain ⟨agreedEq, belowIff⟩ :=
      narrowed.of_compareBeyond ascending (by omega) (by omega) compared
    exact ih ⟨by omega, by omega, narrowed.atLow, .inr ⟨belowIff.mp rfl, agreedEq⟩⟩
      (by omega) (by omega)
  | case5 low high sharedLow sharedHigh wide middle agreed below compared notBelow ih =>
    obtain ⟨agreedEq, belowIff⟩ :=
      narrowed.of_compareBeyond ascending (by omega) (by omega) compared
    exact ih ⟨by omega, highLe, .inr ⟨fun above => notBelow (belowIff.mpr above), agreedEq⟩,
      narrowed.atHigh⟩ (by omega) highLe

end WordStem.AffixTable
