import WordStem.Proofs.ByteBuffer
import WordStem.Proofs.LongestAffix

/-! # The search in memory

In memory a search reads single bytes of the word and of the affixes, and it keeps the interval
of the table in which the affix must lie. One round compares the text with the entry in the
middle; the first entry is compared in a round of its own. Reading a byte or an entry that is not
there has no result. On every table the rounds end, read only what is there and arrive at the
entry at which the bisection arrives. -/
namespace WordStem

/-! ## Comparing a text with a key -/

namespace AffixTable

variable {text key : List UInt8} {known : Nat}

theorem compareBeyond_of_key_end (ended : key.length ≤ known) :
    compareBeyond known text key = (known, false) := by
  rw [compareBeyond, List.drop_of_length_le ended]
  cases text.drop known <;> rfl

theorem compareBeyond_of_text_end (ended : known = text.length) (more : known < key.length) :
    compareBeyond known text key = (known, true) := by
  rw [compareBeyond, List.drop_of_length_le (Nat.le_of_eq ended.symm),
    List.drop_eq_getElem_cons more]
  rfl

theorem compareBeyond_fst_le (inside : known ≤ text.length) :
    (compareBeyond known text key).1 ≤ text.length := by
  have agreed : (readAgainst (text.drop known) (key.drop known)).1 ≤ (text.drop known).length := by
    obtain ⟨shared, length, inText, -⟩ := le_readAgainst_fst_iff.mp (Nat.le_refl
      (readAgainst (text.drop known) (key.drop known)).1)
    rw [← length]
    exact inText.length_le
  rw [List.length_drop] at agreed
  have counted : (compareBeyond known text key).1 =
      known + (readAgainst (text.drop known) (key.drop known)).1 := rfl
  omega

theorem compareBeyond_of_same (textMore : known < text.length) (keyMore : known < key.length)
    (same : text[known] = key[known]) :
    compareBeyond known text key = compareBeyond (known + 1) text key := by
  rw [compareBeyond, compareBeyond, List.drop_eq_getElem_cons textMore,
    List.drop_eq_getElem_cons keyMore, readAgainst, if_pos same]
  simp only [Prod.mk.injEq, and_true]
  omega

theorem compareBeyond_of_differ (textMore : known < text.length) (keyMore : known < key.length)
    (differ : ¬ text[known] = key[known]) :
    compareBeyond known text key = (known, decide (text[known] < key[known])) := by
  rw [compareBeyond, List.drop_eq_getElem_cons textMore, List.drop_eq_getElem_cons keyMore,
    readAgainst, if_neg differ]
  rfl

end AffixTable

namespace ByteBuffer

variable {Context : Type}

/-! ## Reading single bytes -/

/-- Whether no byte can be read after a number of bytes. -/
def exhausted? (memory : ByteBuffer) (direction : Direction) (count : Nat) : Option Bool :=
  match direction with
  | .forward => some (memory.cursor + count == memory.limit)
  | .backward => (subtract? memory.cursor count).map (· == memory.floor)

/-- The byte that is read after a number of bytes. -/
def byteAt? (memory : ByteBuffer) (direction : Direction) (count : Nat) : Option UInt8 :=
  match direction with
  | .forward => memory.bytes[memory.cursor + count]?
  | .backward => do
    let last ← subtract? memory.cursor 1
    let place ← subtract? last count
    memory.bytes[place]?

/-- The byte of a literal that is expected after a number of bytes. -/
def expectedAt? (direction : Direction) (literal : List UInt8) (count : Nat) : Option UInt8 :=
  match direction with
  | .forward => literal[count]?
  | .backward => do
    let last ← subtract? literal.length 1
    let place ← subtract? last count
    literal[place]?

/-- Compares the text with a literal, a number of whose bytes is known to agree. Answers how many
bytes agree and whether the text falls below the literal. -/
def compareFrom? (memory : ByteBuffer) (direction : Direction) (literal : List UInt8)
    (known : Nat) : Option (Nat × Bool) :=
  if known < literal.length then do
    if ← memory.exhausted? direction known then
      return (known, true)
    let byte ← memory.byteAt? direction known
    let expected ← expectedAt? direction literal known
    if byte = expected then
      memory.compareFrom? direction literal (known + 1)
    else
      return (known, decide (byte < expected))
  else
    return (known, false)
termination_by literal.length - known

/-! ## Rounds of the search -/

/-- The part of a table in which an affix must lie, with the numbers of bytes that its ends are
known to share with the text. -/
structure Interval where
  low : Nat
  high : Nat
  sharedLow : Nat
  sharedHigh : Nat

/-- One round: compares the text with the entry in the middle and keeps one half. -/
def narrow? (memory : ByteBuffer) (direction : Direction) (table : AffixTable Context)
    (interval : Interval) : Option Interval := do
  let width ← subtract? interval.high interval.low
  let middle := interval.low + width / 2
  let affix ← table.affixes[middle]?
  let (agreed, below) ← memory.compareFrom? direction (utf8Bytes affix.literal.toList)
    (min interval.sharedLow interval.sharedHigh)
  if below then
    return { interval with high := middle, sharedHigh := agreed }
  else
    return { interval with low := middle, sharedLow := agreed }

theorem narrow?_width {memory : ByteBuffer} {direction : Direction} {table : AffixTable Context}
    {interval next : Interval} (narrowed : memory.narrow? direction table interval = some next) :
    next.high - next.low ≤ interval.high - interval.low ∧
      (1 < next.high - next.low → next.high - next.low < interval.high - interval.low) := by
  simp only [narrow?, Option.bind_eq_bind, Option.bind_eq_some_iff,
    subtract?_eq_some_iff] at narrowed
  obtain ⟨width, ⟨ordered, rfl⟩, affix, -, ⟨agreed, below⟩, -, narrowed⟩ := narrowed
  cases below with
  | true =>
    obtain rfl : _ = next := Option.some.inj narrowed
    simp only
    omega
  | false =>
    obtain rfl : _ = next := Option.some.inj narrowed
    simp only
    omega

/-- Rounds of the search until the interval holds one entry. If that is the first one, it is
compared in another round. -/
def search? (memory : ByteBuffer) (direction : Direction) (table : AffixTable Context)
    (interval : Interval) (firstCompared : Bool) : Option Interval :=
  match _narrowed : memory.narrow? direction table interval with
  | none => none
  | some next =>
    match _difference : subtract? next.high next.low with
    | none => none
    | some width =>
      if _single : width ≤ 1 then
        if 0 < next.low ∨ next.high = next.low ∨ firstCompared then
          some next
        else
          memory.search? direction table next true
      else
        memory.search? direction table next firstCompared
termination_by 2 * (interval.high - interval.low) + (if firstCompared then 0 else 1)
decreasing_by
  · have narrower := narrow?_width _narrowed
    have fresh : firstCompared = false := by simp_all
    simp only [fresh, if_true, Bool.false_eq_true, if_false]
    omega
  · have narrower := narrow?_width _narrowed
    have widthEq := (subtract?_eq_some_iff.mp _difference).2
    omega

/-- Follows the links of a table without guards from an entry, a number of whose bytes agree with
the text. -/
def follow? (memory : ByteBuffer) (direction : Direction) (table : AffixTable Context)
    (agreed index : Nat) : Option (Except Defect Int × ByteBuffer) := do
  match table.affixes[index]? with
  | none => none
  | some affix =>
    if byteLength affix.literal.toList ≤ agreed then
      return (.ok affix.tag, ← memory.advance? direction (byteLength affix.literal.toList))
    else
      match affix.link with
      | .negSucc _ => return (.ok 0, memory)
      | .ofNat target =>
        if target < index then
          memory.follow? direction table agreed target
        else
          return (.error (.brokenChain table.name index), memory)
termination_by index

/-- Finds the longest affix of a table without guards that the word continues with. -/
def find? (memory : ByteBuffer) (direction : Direction) (table : AffixTable Context) :
    Option (Except Defect Int × ByteBuffer) :=
  if table.affixes.isEmpty then
    return (.ok 0, memory)
  else do
    let interval ← memory.search? direction table ⟨0, table.affixes.length, 0, 0⟩ false
    memory.follow? direction table interval.sharedLow interval.low

/-! ## What the reads see -/

section Reads

variable {buffer : WordBuffer} {direction : Direction} {count : Nat}

theorem length_view_forward (buffer : WordBuffer) :
    (buffer.view .forward).length = buffer.limit - buffer.cursor := by
  rw [WordBuffer.view, List.length_drop, length_utf8Bytes]
  rfl

variable (floorLe : buffer.floor ≤ buffer.cursor) (cursorLe : buffer.cursor ≤ buffer.limit)
include floorLe

theorem view_backward :
    buffer.view .backward =
      (((utf8Bytes buffer.text).take buffer.cursor).drop buffer.floor).reverse := by
  simp only [WordBuffer.view, if_pos floorLe]

include cursorLe

theorem length_view_backward :
    (buffer.view .backward).length = buffer.cursor - buffer.floor := by
  rw [view_backward floorLe, List.length_reverse, List.length_drop, List.length_take,
    length_utf8Bytes]
  exact congrArg (· - buffer.floor) (Nat.min_eq_left cursorLe)

theorem exhausted?_inMemory (inside : count ≤ (buffer.view direction).length) :
    buffer.inMemory.exhausted? direction count =
      some (decide (count = (buffer.view direction).length)) := by
  cases direction with
  | forward =>
    rw [length_view_forward] at inside ⊢
    have same : (buffer.cursor + count == buffer.limit) =
        decide (count = buffer.limit - buffer.cursor) := by
      rw [Bool.eq_iff_iff, beq_iff_eq, decide_eq_true_eq]
      omega
    exact congrArg some same
  | backward =>
    rw [length_view_backward floorLe cursorLe] at inside ⊢
    have same : (buffer.cursor - count == buffer.floor) =
        decide (count = buffer.cursor - buffer.floor) := by
      rw [Bool.eq_iff_iff, beq_iff_eq, decide_eq_true_eq]
      omega
    have enough : count ≤ buffer.inMemory.cursor := Nat.le_trans inside (Nat.sub_le _ _)
    rw [exhausted?, subtract?_of_le enough]
    exact congrArg some same

theorem byteAt?_inMemory (inside : count < (buffer.view direction).length) :
    buffer.inMemory.byteAt? direction count = (buffer.view direction)[count]? := by
  cases direction with
  | forward => exact List.getElem?_drop.symm
  | backward =>
    have insideReversed := inside
    rw [view_backward floorLe, List.length_reverse] at insideReversed
    have length := length_view_backward floorLe cursorLe
    rw [view_backward floorLe, List.length_reverse] at length
    rw [length_view_backward floorLe cursorLe] at inside
    have positive : 1 ≤ buffer.cursor := by omega
    have last : subtract? buffer.inMemory.cursor 1 = some (buffer.cursor - 1) :=
      subtract?_of_le positive
    have place : subtract? (buffer.cursor - 1) count = some (buffer.cursor - 1 - count) :=
      subtract?_of_le (by omega)
    rw [byteAt?, last, view_backward floorLe, List.getElem?_reverse insideReversed, length,
      List.getElem?_drop, List.getElem?_take_of_lt (by omega)]
    simp only [Option.bind_eq_bind, Option.bind_some, place]
    exact congrArg (fun place => (utf8Bytes buffer.text)[place]?) (by omega)

omit floorLe cursorLe in
theorem expectedAt?_eq {literal : List UInt8} (inside : count < literal.length) :
    expectedAt? direction literal count = (direction.inReadingOrder literal)[count]? := by
  cases direction with
  | forward => rfl
  | backward =>
    have last : subtract? literal.length 1 = some (literal.length - 1) :=
      subtract?_of_le (by omega)
    have place : subtract? (literal.length - 1) count = some (literal.length - 1 - count) :=
      subtract?_of_le (by omega)
    rw [expectedAt?, last, Direction.inReadingOrder, List.getElem?_reverse inside]
    simp only [Option.bind_eq_bind, Option.bind_some, place]

/-- A comparison in memory reads only bytes that are there and answers what a comparison of texts
answers. -/
theorem compareFrom?_inMemory (literal : List UInt8) (known : Nat)
    (inside : known ≤ (buffer.view direction).length) :
    buffer.inMemory.compareFrom? direction literal known =
      some (AffixTable.compareBeyond known (buffer.view direction)
        (direction.inReadingOrder literal)) := by
  induction remaining : literal.length - known generalizing known with
  | zero =>
    have whole : ¬ known < literal.length := by omega
    have ended : (direction.inReadingOrder literal).length ≤ known := by
      rw [Direction.length_inReadingOrder]
      omega
    rw [compareFrom?, if_neg whole, AffixTable.compareBeyond_of_key_end ended]
    rfl
  | succ remaining ih =>
    have more : known < literal.length := by omega
    rw [compareFrom?, if_pos more, exhausted?_inMemory floorLe cursorLe inside]
    rcases Nat.eq_or_lt_of_le inside with done | further
    · rw [AffixTable.compareBeyond_of_text_end done (by rwa [Direction.length_inReadingOrder])]
      simp [done]
    · have notDone : ¬ known = (buffer.view direction).length := Nat.ne_of_lt further
      have keyMore : known < (direction.inReadingOrder literal).length := by
        rwa [Direction.length_inReadingOrder]
      have read := byteAt?_inMemory floorLe cursorLe further
      have expected : expectedAt? direction literal known =
          (direction.inReadingOrder literal)[known]? := expectedAt?_eq more
      rw [List.getElem?_eq_getElem further] at read
      rw [List.getElem?_eq_getElem keyMore] at expected
      simp only [Option.bind_eq_bind, Option.bind_some, notDone, decide_false, Bool.false_eq_true,
        if_false, read, expected]
      split
      case isTrue same =>
        rw [AffixTable.compareBeyond_of_same further keyMore same]
        exact ih (known + 1) further (by omega)
      case isFalse differ =>
        rw [AffixTable.compareBeyond_of_differ further keyMore differ]
        rfl

end Reads

/-! ## Rounds and halvings -/

section Rounds

variable {buffer : WordBuffer} {direction : Direction} {table : AffixTable Context}
  {interval next : Interval} {firstCompared : Bool}

/-- An interval of a table that is not empty, whose ends share no more bytes with the text than
there are. -/
structure Interval.Fits (interval : Interval) (buffer : WordBuffer) (direction : Direction)
    (table : AffixTable Context) : Prop where
  low_lt_high : interval.low < interval.high
  high_le_length : interval.high ≤ table.affixes.length
  sharedLow_le : interval.sharedLow ≤ (buffer.view direction).length
  sharedHigh_le : interval.sharedHigh ≤ (buffer.view direction).length

def Interval.compared (interval : Interval) (buffer : WordBuffer) (direction : Direction)
    (table : AffixTable Context) : Nat × Bool :=
  AffixTable.compareBeyond (min interval.sharedLow interval.sharedHigh) (buffer.view direction)
    ((table.keys direction).getD (interval.low + (interval.high - interval.low) / 2) [])

/-- The half that a round keeps. -/
def Interval.half (interval : Interval) (buffer : WordBuffer) (direction : Direction)
    (table : AffixTable Context) : Interval :=
  let middle := interval.low + (interval.high - interval.low) / 2
  match interval.compared buffer direction table with
  | (agreed, true) => { interval with high := middle, sharedHigh := agreed }
  | (agreed, false) => { interval with low := middle, sharedLow := agreed }

theorem narrow?_inMemory (floorLe : buffer.floor ≤ buffer.cursor)
    (cursorLe : buffer.cursor ≤ buffer.limit) (fits : interval.Fits buffer direction table) :
    buffer.inMemory.narrow? direction table interval =
      some (interval.half buffer direction table) := by
  obtain ⟨lowLt, highLe, sharedLowLe, sharedHighLe⟩ := fits
  have width : subtract? interval.high interval.low = some (interval.high - interval.low) :=
    subtract?_of_le (Nat.le_of_lt lowLt)
  have inside : interval.low + (interval.high - interval.low) / 2 < table.affixes.length := by
    omega
  have found := List.getElem?_eq_getElem inside
  have comparing : buffer.inMemory.compareFrom? direction
      (utf8Bytes
        table.affixes[interval.low + (interval.high - interval.low) / 2].literal.toList)
      (min interval.sharedLow interval.sharedHigh) = _ :=
    compareFrom?_inMemory floorLe cursorLe _ _ (Nat.le_trans (Nat.min_le_left _ _) sharedLowLe)
  rw [narrow?, width]
  simp only [Option.bind_eq_bind, Option.bind_some, found, comparing, Interval.half,
    Interval.compared, AffixTable.getD_keys found, AffixTable.key]
  rcases AffixTable.compareBeyond _ _ _ with ⟨agreed, _ | _⟩
  · rfl
  · rfl

theorem Interval.Fits.half (fits : interval.Fits buffer direction table)
    (wide : 1 < interval.high - interval.low) :
    (interval.half buffer direction table).Fits buffer direction table := by
  obtain ⟨lowLt, highLe, sharedLowLe, sharedHighLe⟩ := fits
  have agreedLe : (interval.compared buffer direction table).1 ≤ (buffer.view direction).length :=
    AffixTable.compareBeyond_fst_le (Nat.le_trans (Nat.min_le_left _ _) sharedLowLe)
  rw [Interval.half]
  revert agreedLe
  rcases interval.compared buffer direction table with ⟨agreed, _ | _⟩
  · intro agreedLe
    exact ⟨by simp only; omega, highLe, agreedLe, sharedHighLe⟩
  · intro agreedLe
    exact ⟨by simp only; omega, by simp only; omega, sharedLowLe, agreedLe⟩

def Interval.located (interval : Interval) (buffer : WordBuffer) (direction : Direction)
    (table : AffixTable Context) : Nat × Nat :=
  AffixTable.bisect (table.keys direction) (buffer.view direction) interval.low interval.high
    interval.sharedLow interval.sharedHigh

theorem Interval.located_of_wide (wide : 1 < interval.high - interval.low) :
    interval.located buffer direction table =
      (interval.half buffer direction table).located buffer direction table := by
  rw [Interval.located, AffixTable.bisect, if_neg (by omega), Interval.half, Interval.compared]
  simp only
  rcases AffixTable.compareBeyond (min interval.sharedLow interval.sharedHigh)
    (buffer.view direction) ((table.keys direction).getD
      (interval.low + (interval.high - interval.low) / 2) []) with ⟨agreed, _ | _⟩
  · rfl
  · rfl

/-- What the search does after a round. -/
def goOn? (memory : ByteBuffer) (direction : Direction) (table : AffixTable Context)
    (next : Interval) (firstCompared : Bool) : Option Interval :=
  if next.high - next.low ≤ 1 then
    if 0 < next.low ∨ next.high = next.low ∨ firstCompared then some next
    else memory.search? direction table next true
  else
    memory.search? direction table next firstCompared

theorem search?_eq_goOn? {memory : ByteBuffer}
    (narrowed : memory.narrow? direction table interval = some next)
    (ordered : next.low ≤ next.high) :
    memory.search? direction table interval firstCompared =
      memory.goOn? direction table next firstCompared := by
  rw [search?, goOn?]
  split
  case h_1 none =>
    rw [narrowed] at none
    cases none
  case h_2 found foundEq =>
    obtain rfl : next = found := Option.some.inj (narrowed.symm.trans foundEq)
    split
    case h_1 none =>
      rw [subtract?_of_le ordered] at none
      cases none
    case h_2 width widthEq =>
      obtain rfl := (subtract?_eq_some_iff.mp widthEq).2
      rfl

/-- Comparing the first entry alone is what the bisection does at the end. -/
theorem search?_first (floorLe : buffer.floor ≤ buffer.cursor)
    (cursorLe : buffer.cursor ≤ buffer.limit) (fits : interval.Fits buffer direction table)
    (first : interval.low = 0) (single : interval.high = 1) :
    ∃ final, buffer.inMemory.search? direction table interval true = some final ∧
      (final.low, final.sharedLow) = interval.located buffer direction table := by
  obtain ⟨low, high, sharedLow, sharedHigh⟩ := interval
  obtain rfl : low = 0 := first
  obtain rfl : high = 1 := single
  have narrowed := narrow?_inMemory floorLe cursorLe fits
  rw [Interval.half, Interval.compared] at narrowed
  rw [Interval.located, AffixTable.bisect]
  simp only [Nat.sub_zero, Nat.zero_add, Nat.reduceDiv, Nat.le_refl, if_true] at narrowed ⊢
  revert narrowed
  rcases AffixTable.compareBeyond (min sharedLow sharedHigh) (buffer.view direction)
    ((table.keys direction).getD 0 []) with ⟨agreed, _ | _⟩
  · intro narrowed
    exact ⟨⟨0, 1, agreed, sharedHigh⟩, search?_eq_goOn? narrowed (Nat.zero_le 1), rfl⟩
  · intro narrowed
    exact ⟨⟨0, 0, sharedLow, agreed⟩, search?_eq_goOn? narrowed (Nat.le_refl 0), rfl⟩

/-- Whatever the rounds have left, they go on to the end of the bisection. -/
theorem goOn?_arrives (floorLe : buffer.floor ≤ buffer.cursor)
    (cursorLe : buffer.cursor ≤ buffer.limit) (fits : interval.Fits buffer direction table) :
    ∃ final, buffer.inMemory.goOn? direction table interval false = some final ∧
      (final.low, final.sharedLow) = interval.located buffer direction table := by
  induction width : interval.high - interval.low using Nat.strongRecOn generalizing interval with
  | ind width ih =>
    have lowLt := fits.low_lt_high
    rw [goOn?]
    by_cases single : interval.high - interval.low ≤ 1
    · rw [if_pos single]
      by_cases first : interval.low = 0
      · have more : ¬ (0 < interval.low ∨ interval.high = interval.low ∨ false = true) := by
          rintro (behind | closed | ⟨⟨⟩⟩) <;> omega
        rw [if_neg more]
        exact search?_first floorLe cursorLe fits first (by omega)
      · refine ⟨interval, if_pos (.inl (by omega)), ?_⟩
        rw [Interval.located, AffixTable.bisect, if_pos single, if_neg first]
    · have wide : 1 < interval.high - interval.low := by omega
      have fitsHalf := fits.half wide
      have narrowed := narrow?_inMemory floorLe cursorLe fits
      have narrower := narrow?_width narrowed
      rw [if_neg single, Interval.located_of_wide wide,
        search?_eq_goOn? narrowed (Nat.le_of_lt fitsHalf.low_lt_high)]
      have halfLt := fitsHalf.low_lt_high
      exact ih _ (by omega) fitsHalf rfl

theorem search?_single (floorLe : buffer.floor ≤ buffer.cursor)
    (cursorLe : buffer.cursor ≤ buffer.limit) (single : table.affixes.length = 1) :
    ∃ final, buffer.inMemory.search? direction table ⟨0, 1, 0, 0⟩ false = some final ∧
      (final.low, final.sharedLow) =
        (⟨0, 1, 0, 0⟩ : Interval).located buffer direction table := by
  have fits : (⟨0, 1, 0, 0⟩ : Interval).Fits buffer direction table :=
    ⟨Nat.one_pos, Nat.le_of_eq single.symm, Nat.zero_le _, Nat.zero_le _⟩
  have agreedLe : ((⟨0, 1, 0, 0⟩ : Interval).compared buffer direction table).1 ≤
    (buffer.view direction).length := AffixTable.compareBeyond_fst_le (Nat.zero_le _)
  have narrowed := narrow?_inMemory floorLe cursorLe fits
  rw [Interval.half] at narrowed
  rw [Interval.compared] at narrowed agreedLe
  simp only [Nat.sub_zero, Nat.zero_add, Nat.reduceDiv, Nat.min_self] at narrowed agreedLe
  rw [Interval.located, AffixTable.bisect]
  simp only [Nat.sub_zero, Nat.le_refl, if_true, Nat.min_self]
  revert narrowed agreedLe
  cases compared : AffixTable.compareBeyond 0 (buffer.view direction)
    ((table.keys direction).getD 0 []) with
  | mk agreed below =>
    intro narrowed agreedLe
    cases below with
    | true => exact ⟨⟨0, 0, 0, agreed⟩, search?_eq_goOn? narrowed (Nat.le_refl 0), rfl⟩
    | false =>
      have fitsNext : (⟨0, 1, agreed, 0⟩ : Interval).Fits buffer direction table :=
        ⟨Nat.one_pos, Nat.le_of_eq single.symm, agreedLe, Nat.zero_le _⟩
      obtain ⟨final, arrived, final_eq⟩ := goOn?_arrives floorLe cursorLe fitsNext
      refine ⟨final, (search?_eq_goOn? narrowed (Nat.zero_le 1)).trans arrived, ?_⟩
      rw [final_eq, Interval.located, AffixTable.bisect]
      simp only [Nat.sub_zero, Nat.le_refl, if_true, Nat.min_zero, compared]
      rfl

/-- The rounds of the search end where the bisection ends. -/
theorem search?_inMemory (floorLe : buffer.floor ≤ buffer.cursor)
    (cursorLe : buffer.cursor ≤ buffer.limit) (nonempty : 0 < table.affixes.length) :
    ∃ final, buffer.inMemory.search? direction table ⟨0, table.affixes.length, 0, 0⟩ false =
        some final ∧
      (final.low, final.sharedLow) =
        AffixTable.bisect (table.keys direction) (buffer.view direction) 0
          (table.keys direction).size 0 0 := by
  rw [AffixTable.size_keys]
  rcases Nat.lt_or_eq_of_le nonempty with many | single
  · have fits : (⟨0, table.affixes.length, 0, 0⟩ : Interval).Fits buffer direction table :=
      ⟨nonempty, Nat.le_refl _, Nat.zero_le _, Nat.zero_le _⟩
    have wide : 1 < (⟨0, table.affixes.length, 0, 0⟩ : Interval).high -
      (⟨0, table.affixes.length, 0, 0⟩ : Interval).low := many
    have fitsHalf := fits.half wide
    have narrowed := narrow?_inMemory floorLe cursorLe fits
    obtain ⟨final, arrived, final_eq⟩ := goOn?_arrives floorLe cursorLe fitsHalf
    refine ⟨final, ?_, ?_⟩
    · rw [search?_eq_goOn? narrowed (Nat.le_of_lt fitsHalf.low_lt_high), arrived]
    · rw [final_eq, ← Interval.located_of_wide wide]
      rfl
  · rw [← single]
    exact search?_single floorLe cursorLe single.symm

end Rounds

/-! ## Following the links -/

section Links

variable {table : AffixTable Context} {direction : Direction} {workspace : Workspace Context}

theorem bisect_fst_lt {keys : Array (List UInt8)} {text : List UInt8}
    {low high sharedLow sharedHigh : Nat} (lowLt : low < high) (highLe : high ≤ keys.size) :
    (AffixTable.bisect keys text low high sharedLow sharedHigh).1 < keys.size := by
  fun_induction AffixTable.bisect keys text low high sharedLow sharedHigh with
  | case1 => exact Nat.lt_of_lt_of_le lowLt highLe
  | case2 => exact Nat.lt_of_lt_of_le lowLt highLe
  | case3 => exact Nat.lt_of_lt_of_le lowLt highLe
  | case4 low high sharedLow sharedHigh wide middle agreed compared ih =>
    exact ih (by omega) (by omega)
  | case5 low high sharedLow sharedHigh wide middle agreed below compared notBelow ih =>
    exact ih (by omega) highLe

theorem bisect_snd_le {keys : Array (List UInt8)} {text : List UInt8}
    {low high sharedLow sharedHigh : Nat} (inside : sharedLow ≤ text.length) :
    (AffixTable.bisect keys text low high sharedLow sharedHigh).2 ≤ text.length := by
  have agreedLe (key : List UInt8) (sharedHigh : Nat) {sharedLow : Nat}
      (inside : sharedLow ≤ text.length) :
      (AffixTable.compareBeyond (min sharedLow sharedHigh) text key).1 ≤ text.length :=
    AffixTable.compareBeyond_fst_le (Nat.le_trans (Nat.min_le_left _ _) inside)
  fun_induction AffixTable.bisect keys text low high sharedLow sharedHigh with
  | case1 => exact inside
  | case2 high sharedLow sharedHigh agreed below compared =>
    have agreedInside := agreedLe (keys.getD 0 []) sharedHigh inside
    rwa [compared] at agreedInside
  | case3 => exact inside
  | case4 low high sharedLow sharedHigh wide middle agreed compared ih => exact ih inside
  | case5 low high sharedLow sharedHigh wide middle agreed below compared notBelow ih =>
    have agreedInside := agreedLe (keys.getD middle []) sharedHigh inside
    rw [compared] at agreedInside
    exact ih agreedInside

/-- The outcome of a search in memory: its answer, and the buffer after it. -/
def answered : EStateM.Result Defect (Workspace Context) Int → Except Defect Int × ByteBuffer
  | .ok tag reached => (.ok tag, reached.buffer.inMemory)
  | .error defect reached => (.error defect, reached.buffer.inMemory)

/-- On a table without guards the walk along the links reads entries that are there and never
moves the cursor below zero. -/
theorem follow?_inMemory (unguarded : table.Unguarded)
    (floorLe : workspace.buffer.floor ≤ workspace.buffer.cursor)
    (cursorLe : workspace.buffer.cursor ≤ workspace.buffer.limit) {agreed index : Nat}
    (inside : index < table.affixes.length)
    (agreedLe : agreed ≤ (workspace.buffer.view direction).length) :
    workspace.buffer.inMemory.follow? direction table agreed index =
      some (answered
        (table.walk direction workspace.buffer.cursor agreed index workspace)) := by
  induction index using Nat.strongRecOn with
  | ind index ih =>
    have found := List.getElem?_eq_getElem inside
    rw [follow?, found, AffixTable.walk_of_found found]
    by_cases shorter : agreed < byteLength table.affixes[index].literal.toList
    · rw [RuleM.bind_of_ok (AffixTable.accepts_of_lt shorter)]
      simp only [if_neg (Nat.not_le.mpr shorter), Bool.false_eq_true, if_false]
      rw [AffixTable.walkOn]
      cases table.affixes[index].link with
      | negSucc below => rfl
      | ofNat target =>
        simp only
        split
        case isTrue earlier => exact ih target earlier (Nat.lt_trans earlier inside)
        case isFalse => rfl
    · have plain := unguarded _ (List.getElem_mem inside)
      have enough : direction = .backward →
          byteLength table.affixes[index].literal.toList ≤ workspace.buffer.cursor := by
        rintro rfl
        rw [length_view_backward floorLe cursorLe] at agreedLe
        omega
      rw [RuleM.bind_of_ok (AffixTable.accepts_of_unguarded shorter plain)]
      simp only [if_pos (Nat.not_lt.mp shorter), advance?_inMemory enough, if_true]
      cases direction <;> rfl

/-- A search in memory without guards reads only what is there and answers what the search on
texts answers, whether the table is valid or not. -/
theorem find?_inMemory (workspace : Workspace Context) (unguarded : table.Unguarded)
    (floorLe : workspace.buffer.floor ≤ workspace.buffer.cursor)
    (cursorLe : workspace.buffer.cursor ≤ workspace.buffer.limit) :
    workspace.buffer.inMemory.find? direction table =
      some (answered (table.find direction workspace)) := by
  rw [find?]
  cases listed : table.affixes.isEmpty with
  | true =>
    rw [AffixTable.find, listed]
    rfl
  | false =>
    have nonempty : 0 < table.affixes.length := by
      rw [List.length_pos_iff]
      simpa using listed
    obtain ⟨⟨low, high, sharedLow, sharedHigh⟩, arrived, located⟩ :
        ∃ final, workspace.buffer.inMemory.search? direction table
          ⟨0, table.affixes.length, 0, 0⟩ false = some final ∧ _ :=
      search?_inMemory floorLe cursorLe nonempty
    have indexLt : low < (table.keys direction).size := by
      rw [show low = _ from congrArg Prod.fst located]
      exact bisect_fst_lt (by rwa [AffixTable.size_keys]) (Nat.le_refl _)
    have agreedLe : sharedLow ≤ (workspace.buffer.view direction).length := by
      rw [show sharedLow = _ from congrArg Prod.snd located]
      exact bisect_snd_le (Nat.zero_le _)
    rw [AffixTable.size_keys] at indexLt
    rw [AffixTable.find_of_nonempty listed, ← located, arrived]
    exact follow?_inMemory unguarded floorLe cursorLe indexLt agreedLe

end Links

end ByteBuffer

end WordStem
