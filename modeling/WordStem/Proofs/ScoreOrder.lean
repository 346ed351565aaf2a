import WordStem.Proofs.NumberOrder
import WordStem.Score

/-! # The total order of scores

Numbers are ordered as usual, and the negative zero is below the positive one. Values that are not
numbers are below all numbers under a minus sign and above them otherwise, and lie the farther out
the larger their bits are. Main results: `orderKey_lt_iff`, that the keys of scores are in this
order, and `orderKey_inj`, that different scores have different keys. -/
namespace WordStem.Score

open Float.Model Float.Model.UnpackedFloat

variable {x y : Score}

theorem isNaN_iff (score : Score) : score.isNaN = true ↔ infinity < score.magnitude :=
  decide_eq_true_iff

theorem isMinus_iff (score : Score) : score.isMinus = true ↔ score.bits.toNat / 2 ^ 63 = 1 :=
  beq_iff_eq

/-! ## The value of a score -/

/-- The bits of a value that is not a number have the largest exponent and some mantissa. -/
theorem isNaN_iff_isNaNBits (score : Score) :
    score.isNaN = true ↔ @isNaNBits Format.binary64 score.bits.toBitVec = true := by
  have below := score.bits.toNat_lt
  have word : score.bits.toBitVec.toNat = score.bits.toNat := rfl
  have top : @unpackExponent Format.binary64 score.bits.toBitVec = -1#11 ↔
      score.bits.toNat / 2 ^ 52 % 2 ^ 11 = 2047 := by
    rw [← BitVec.toNat_inj, toNat_unpackExponent, word]
    rfl
  have whole : @unpackMantissa Format.binary64 score.bits.toBitVec = 0#52 ↔
      score.bits.toNat % 2 ^ 52 = 0 := by
    rw [← BitVec.toNat_inj, toNat_unpackMantissa, word]
    rfl
  have parts : @isNaNBits Format.binary64 score.bits.toBitVec = true ↔
      @unpackExponent Format.binary64 score.bits.toBitVec = -1#11 ∧
        @unpackMantissa Format.binary64 score.bits.toBitVec ≠ 0#52 := decide_eq_true_iff
  rw [isNaN_iff, parts, ne_eq, top, whole, magnitude, infinity]
  simp only [Nat.pow_eq]
  omega

theorem toBits_value (number : x.isNaN = false) : x.value.toBits = x.bits := by
  have valid : Format.binary64.Valid x.bits.toBitVec := by
    constructor
    intro top broken
    have notNumber : @isNaNBits Format.binary64 x.bits.toBitVec = true :=
      decide_eq_true ⟨top, broken⟩
    rw [← isNaN_iff_isNaNBits, number] at notNumber
    cases notNumber
  exact congrArg Float.toBits (Float.ofBits_toBits ⟨⟨x.bits, valid⟩⟩)

theorem isNaN_value (score : Score) : score.value.isNaN = score.isNaN := by
  cases broken : score.isNaN with
  | true =>
    have spelled := of_decide_eq_true ((isNaN_iff_isNaNBits score).mp broken)
    have unpacked : unpack Format.binary64 score.bits.toBitVec = .notANumber := by
      rw [UnpackedFloat.unpack, if_pos spelled.1, if_neg spelled.2]
    change (pack (unpack Format.binary64 score.bits.toBitVec)).isNaN = true
    rw [unpacked]
    rfl
  | false =>
    apply Bool.eq_false_iff.mpr
    intro notNumber
    have packed := toBits_of_isNaN notNumber
    rw [toBits_value broken] at packed
    have spelled : score.isNaN = true := by
      rw [isNaN_iff_isNaNBits, packed]
      exact isNaNBits_packedNaN
    exact Bool.false_ne_true (broken.symm.trans spelled)

/-- Values that are not numbers are one and the same. -/
theorem eq_of_isNaN {first second : Float} (firstBroken : first.isNaN = true)
    (secondBroken : second.isNaN = true) : first = second := by
  apply Float.toBits_inj.mp
  apply UInt64.toBitVec_inj.mp
  rw [toBits_of_isNaN firstBroken, toBits_of_isNaN secondBroken]

theorem value_of (value : Float) (leftover : UInt64) : (Score.of value leftover).value = value := by
  unfold Score.of
  split
  case isTrue broken =>
    rw [Bool.and_eq_true] at broken
    exact eq_of_isNaN ((isNaN_value _).trans broken.2) broken.1
  case isFalse => exact Float.ofBits_toBits value

/-- What is left over does not show in the score of a number. -/
theorem of_of_number {value : Float} (number : value.isNaN = false) (leftover : UInt64) :
    Score.of value leftover = ⟨value.toBits⟩ := by
  rw [Score.of, number, Bool.false_and, if_neg Bool.false_ne_true]

/-! ## The total order -/

/-- One score is below another in the total order. -/
inductive TotalLess (x y : Score) : Prop
  /-- Numbers of different value are ordered by it. -/
  | value (less : x.value < y.value)
  /-- The negative zero is below the positive one. -/
  | zero (equal : x.value == y.value) (minus : x.isMinus) (plus : ¬ y.isMinus)
  /-- What is not a number and has a minus sign is below all else. -/
  | below (broken : x.isNaN) (minus : x.isMinus) (other : ¬ (y.isNaN ∧ y.isMinus))
  /-- What is not a number and has no minus sign is above all else. -/
  | above (broken : y.isNaN) (plus : ¬ y.isMinus) (other : ¬ (x.isNaN ∧ ¬ x.isMinus))
  /-- Where neither is a number, the larger bits are farther out. -/
  | outward (xBroken : x.isNaN) (yBroken : y.isNaN) (sameSign : x.isMinus = y.isMinus)
    (less : if x.isMinus then y.magnitude < x.magnitude else x.magnitude < y.magnitude)

theorem hasMinusSign_value (number : x.isNaN = false) : hasMinusSign x.value = x.isMinus := by
  rw [hasMinusSign, toBits_value number, isMinus]

/-- Numbers compare as their bits do under their signs. -/
theorem compare_values (xNumber : x.isNaN = false) (yNumber : y.isNaN = false) :
    x.value.toModel.unpack.compare y.value.toModel.unpack =
      some (compare (if x.isMinus then -(x.magnitude : Int) else x.magnitude)
        (if y.isMinus then -(y.magnitude : Int) else y.magnitude)) := by
  have parts {score : Score} (number : score.isNaN = false) :
      signedBits score.value =
        if score.isMinus then -(score.magnitude : Int) else score.magnitude := by
    rw [signedBits_eq, hasMinusSign_value number, magnitudeBits, toBits_value number]
    rfl
  rw [compare_unpacks (unpacks x.value) (unpacks y.value) ((isNaN_value x).trans xNumber)
    ((isNaN_value y).trans yNumber), parts xNumber, parts yNumber]

theorem orderKey_lt_iff_of_numbers (xNumber : x.isNaN = false) (yNumber : y.isNaN = false) :
    x.orderKey < y.orderKey ↔
      x.value < y.value ∨
        ((x.value == y.value) = true ∧ x.isMinus = true ∧ ¬ y.isMinus = true) := by
  rw [float_lt_iff, float_beq_iff, compare_values xNumber yNumber, orderKey, orderKey]
  simp only [Option.some.injEq, compare_lt_iff_lt, compare_eq_iff_eq]
  cases x.isMinus <;> cases y.isMinus <;> simp <;> omega

/-- No number is compared with a value that is not one. -/
theorem incomparable_of_isNaN (broken : x.isNaN = true ∨ y.isNaN = true) :
    ¬ x.value < y.value ∧ ¬ (x.value == y.value) = true := by
  rw [← isNaN_value, ← isNaN_value] at broken
  rw [float_lt_iff, float_beq_iff, compare_of_isNaN broken]
  exact ⟨nofun, nofun⟩

theorem orderKey_of_minus (minus : x.isMinus = true) : x.orderKey = -1 - (x.magnitude : Int) :=
  if_pos minus

theorem orderKey_of_plus (plus : ¬ x.isMinus = true) : x.orderKey = x.magnitude :=
  if_neg plus

theorem totalLess_of_orderKey_lt (less : x.orderKey < y.orderKey) : x.TotalLess y := by
  have xNaN := isNaN_iff x
  have yNaN := isNaN_iff y
  by_cases broken : x.isNaN = true ∨ y.isNaN = true
  · by_cases xMinus : x.isMinus = true <;> by_cases yMinus : y.isMinus = true
    · rw [orderKey_of_minus xMinus, orderKey_of_minus yMinus] at less
      have xBroken : x.isNaN = true := by
        rw [xNaN, yNaN] at broken
        rw [xNaN]
        omega
      by_cases yBroken : y.isNaN = true
      · refine .outward xBroken yBroken (xMinus.trans yMinus.symm) ?_
        rw [if_pos xMinus]
        omega
      · exact .below xBroken xMinus fun both => yBroken both.1
    · by_cases xBroken : x.isNaN = true
      · exact .below xBroken xMinus fun both => yMinus both.2
      · exact .above (broken.resolve_left xBroken) yMinus fun both => xBroken both.1
    · rw [orderKey_of_plus xMinus, orderKey_of_minus yMinus] at less
      omega
    · rw [orderKey_of_plus xMinus, orderKey_of_plus yMinus] at less
      have yBroken : y.isNaN = true := by
        rw [xNaN, yNaN] at broken
        rw [yNaN]
        omega
      by_cases xBroken : x.isNaN = true
      · refine .outward xBroken yBroken ?_ ?_
        · rw [Bool.eq_false_iff.mpr xMinus, Bool.eq_false_iff.mpr yMinus]
        · rw [if_neg xMinus]
          omega
      · exact .above yBroken yMinus fun both => xBroken both.1
  · rw [not_or, Bool.not_eq_true, Bool.not_eq_true] at broken
    obtain valueLess | ⟨equal, minus, plus⟩ :=
      (orderKey_lt_iff_of_numbers broken.1 broken.2).mp less
    · exact .value valueLess
    · exact .zero equal minus plus

theorem orderKey_lt_of_totalLess (less : x.TotalLess y) : x.orderKey < y.orderKey := by
  have xNaN := isNaN_iff x
  have yNaN := isNaN_iff y
  -- Only numbers are compared by value.
  have numbers (compared : x.value < y.value ∨ (x.value == y.value) = true) :
      x.isNaN = false ∧ y.isNaN = false := by
    by_contra broken
    have either : x.isNaN = true ∨ y.isNaN = true := by simpa [imp_iff_not_or] using broken
    have incomparable := incomparable_of_isNaN either
    exact compared.elim incomparable.1 incomparable.2
  cases less with
  | value valueLess =>
    obtain ⟨xNumber, yNumber⟩ := numbers (.inl valueLess)
    exact (orderKey_lt_iff_of_numbers xNumber yNumber).mpr (.inl valueLess)
  | zero equal minus plus =>
    obtain ⟨xNumber, yNumber⟩ := numbers (.inr equal)
    exact (orderKey_lt_iff_of_numbers xNumber yNumber).mpr (.inr ⟨equal, minus, plus⟩)
  | below broken minus other =>
    rw [orderKey_of_minus minus]
    by_cases yMinus : y.isMinus = true
    · have yNumber : ¬ y.isNaN = true := fun yBroken => other ⟨yBroken, yMinus⟩
      rw [xNaN] at broken
      rw [yNaN] at yNumber
      rw [orderKey_of_minus yMinus]
      omega
    · rw [orderKey_of_plus yMinus]
      omega
  | above broken plus other =>
    rw [orderKey_of_plus plus]
    by_cases xMinus : x.isMinus = true
    · rw [orderKey_of_minus xMinus]
      omega
    · have xNumber : ¬ x.isNaN = true := fun xBroken => other ⟨xBroken, xMinus⟩
      rw [xNaN] at xNumber
      rw [yNaN] at broken
      rw [orderKey_of_plus xMinus]
      omega
  | outward xBroken yBroken sameSign less =>
    rw [orderKey, orderKey, ← sameSign]
    split at less
    case isTrue minus =>
      rw [if_pos minus, if_pos minus]
      omega
    case isFalse plus =>
      rw [if_neg plus, if_neg plus]
      omega

theorem orderKey_lt_iff (x y : Score) : x.orderKey < y.orderKey ↔ x.TotalLess y :=
  ⟨totalLess_of_orderKey_lt, orderKey_lt_of_totalLess⟩

/-- A value that is not a number and has no minus sign is above the positive infinity. -/
example : TotalLess ⟨(1.0 / 0.0 : Float).toBits⟩ ⟨0x7FF8000000000000⟩ := by
  rw [← orderKey_lt_iff]
  decide +kernel

theorem orderKey_inj {x y : Score} : x.orderKey = y.orderKey ↔ x = y := by
  refine ⟨fun same => ?_, congrArg orderKey⟩
  have xBelow := x.bits.toNat_lt
  have yBelow := y.bits.toNat_lt
  have xMinus := isMinus_iff x
  have yMinus := isMinus_iff y
  have sameBits : x.bits = y.bits := by
    rw [orderKey, orderKey, magnitude, magnitude] at same
    rw [← UInt64.toNat_inj]
    cases xSign : x.isMinus <;> cases ySign : y.isMinus <;>
      simp only [xSign, ySign, Bool.false_eq_true, if_true, if_false, true_iff, false_iff,
        Nat.pow_eq] at same xMinus yMinus <;> omega
  cases x
  cases y
  exact congrArg Score.mk sameBits

end WordStem.Score
