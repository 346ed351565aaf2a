import Mathlib
import WordStem.Proofs.NumberOrder
import WordStem.SparseMapping

/-! # Exact counts

Counting adds `1.0` to a number once for each occurrence. A count below 2^53 fits the significand,
so as a float it is the count shifted until the significand is full, and adding one to it rounds
nothing away. Main statement: `toFloat_add_one`. -/
namespace WordStem.ExactCount

open Float.Model (Format totalExponent UnpackedFloat)
open Float.Model.UnpackedFloat

variable {count : Nat}

theorem log2_mul_two_pow (positive : 0 < count) (shift : Nat) :
    (count * 2 ^ shift).log2 = count.log2 + shift := by
  induction shift with
  | zero => simp
  | succ shift ih =>
    have doubled : count * 2 ^ (shift + 1) = 2 * (count * 2 ^ shift) := by
      rw [Nat.pow_succ]
      ac_rfl
    have nonzero : count * 2 ^ shift ≠ 0 :=
      Nat.ne_of_gt (Nat.mul_pos positive (Nat.two_pow_pos shift))
    rw [doubled, Nat.log2_two_mul nonzero, ih, Nat.add_assoc]

/-- The places by which a count is shifted until the significand is full. -/
def spare (count : Nat) : Nat :=
  52 - count.log2

theorem log2_add_spare (positive : 0 < count) (fits : count < 2 ^ 53) :
    count.log2 + spare count = 52 := by
  have small := (Nat.log2_lt (Nat.ne_of_gt positive)).mpr fits
  rw [spare]
  omega

theorem spare_le (count : Nat) : spare count ≤ 52 :=
  Nat.sub_le 52 count.log2

/-- The count as an unpacked float whose significand is full. -/
def unpacked (count : Nat) (positive : 0 < count) : UnpackedFloat :=
  .finite .positive (count * 2 ^ spare count) (-(spare count : Int))
    (Nat.mul_pos positive (Nat.two_pow_pos _))

/-! ## Rounding -/

theorem shiftRight_zeros (count place more : Nat) :
    (⟨count * 2 ^ (place + more), false, false⟩ : ExtendedMantissa) >>> more =
      ⟨count * 2 ^ place, false, false⟩ := by
  induction more generalizing place with
  | zero => rfl
  | succ more ih =>
    have shifted := ih (place + 1)
    rw [Nat.add_right_comm place 1 more] at shifted
    have halves : count * 2 ^ (place + 1) = 2 * (count * 2 ^ place) := by
      rw [Nat.pow_succ]
      ac_rfl
    change ((⟨count * 2 ^ (place + (more + 1)), false, false⟩ : ExtendedMantissa) >>>
      more).shiftRightOne = _
    rw [← Nat.add_assoc, shifted, ExtendedMantissa.shiftRightOne]
    simp [halves]

/-- However far a count is shifted, the format wants it where the significand is full. -/
theorem targetExponent_eq (positive : 0 < count) (fits : count < 2 ^ 53) (shift : Nat) :
    Format.binary64.targetExponent (totalExponent (count * 2 ^ shift) (-(shift : Int))) =
      -(spare count : Int) := by
  have places := log2_add_spare positive fits
  have inRange := spare_le count
  simp only [Format.targetExponent, totalExponent, log2_mul_two_pow positive,
    Format.mantissaBits, Format.minExponent]
  omega

theorem shiftToTargetExponent_eq (positive : 0 < count) (fits : count < 2 ^ 53) {shift : Nat}
    (enough : spare count ≤ shift) :
    shiftToTargetExponent .binary64 (count * 2 ^ shift) (-(shift : Int)) .exact =
      (⟨count * 2 ^ spare count, false, false⟩, -(spare count : Int)) := by
  obtain ⟨more, rfl⟩ := Nat.exists_eq_add_of_le enough
  have amount : (-(spare count : Int) - -((spare count + more : Nat) : Int)).toNat = more := by
    omega
  rw [shiftToTargetExponent, targetExponent_eq positive fits, shiftToExponent, amount,
    ExtendedMantissa.ofMantissaAndAccuracy, shiftRight_zeros]
  congr 1
  omega

theorem roundWithAccuracy_eq (positive : 0 < count) (fits : count < 2 ^ 53) {shift : Nat}
    (enough : spare count ≤ shift) :
    roundWithAccuracy .binary64 .positive (count * 2 ^ shift) (-(shift : Int)) .exact =
      unpacked count positive := by
  have nonzero : count * 2 ^ spare count ≠ 0 :=
    Nat.ne_of_gt (Nat.mul_pos positive (Nat.two_pow_pos _))
  simp only [roundWithAccuracy, shiftToTargetExponent_eq positive fits enough,
    ExtendedMantissa.roundedMantissa, ExtendedMantissa.accuracy, Accuracy.roundToNearestEven,
    shiftToTargetExponent_eq positive fits (Nat.le_refl _), dif_neg nonzero, unpacked]

theorem round_eq (positive : 0 < count) (fits : count < 2 ^ 53) (shift : Nat) :
    UnpackedFloat.round .binary64 .positive (count * 2 ^ shift) (-(shift : Int)) =
      unpacked count positive := by
  have amount : (-(shift : Int) - -(spare count : Int)).toNat = spare count - shift := by omega
  have enough : spare count ≤ shift + (spare count - shift) := by omega
  have exponentEq : -(shift : Int) - ((spare count - shift : Nat) : Int) =
      -((shift + (spare count - shift) : Nat) : Int) := by omega
  simp only [UnpackedFloat.round, targetExponent_eq positive fits, decreaseExponent, amount, exponentEq,
    Nat.shiftLeft_eq, Nat.mul_assoc, ← Nat.pow_add]
  exact roundWithAccuracy_eq positive fits enough

theorem normalize_eq (positive : 0 < count) (fits : count < 2 ^ 53) (shift : Nat) :
    UnpackedFloat.normalize .binary64 ((count * 2 ^ shift : Nat) : Int) (-(shift : Int)) .positive =
      unpacked count positive := by
  have above : compare ((count * 2 ^ shift : Nat) : Int) 0 = .gt := by
    rw [Int.compare_eq_gt]
    exact Int.natCast_pos.mpr (Nat.mul_pos positive (Nat.two_pow_pos shift))
  rw [UnpackedFloat.normalize, above]
  exact round_eq positive fits shift

/-! ## Packing -/

theorem unpackSign_packComponents (exponent : BitVec 11) (mantissa : BitVec 52) :
    unpackSign (packComponents .binary64 .positive exponent mantissa) = 0#1 := by
  change (Sign.positive.toBitVec ++ exponent ++ mantissa).extractLsb' 63 1 = 0#1
  rw [BitVec.extractLsb'_append_eq_of_le (by decide),
    BitVec.extractLsb'_append_eq_of_le (by decide)]
  rfl

theorem toNat_leading_append {significand : Nat} (lower : 2 ^ 52 ≤ significand)
    (upper : significand < 2 ^ 53) :
    (1#1 ++ BitVec.ofNat 52 significand).toNat = significand := by
  rw [toNat_leading, BitVec.toNat_ofNat]
  omega

theorem significand_bounds (positive : 0 < count) (fits : count < 2 ^ 53) :
    2 ^ 52 ≤ count * 2 ^ spare count ∧ count * 2 ^ spare count < 2 ^ 53 := by
  refine (Nat.log2_eq_iff (Nat.ne_of_gt (Nat.mul_pos positive (Nat.two_pow_pos _)))).mp ?_
  rw [log2_mul_two_pow positive, log2_add_spare positive fits]

/-- The exponent of a count as it is packed. -/
def packedExponent (count : Nat) : BitVec 11 :=
  BitVec.ofNat 11 (1075 - spare count)

theorem packedExponent_toNat (count : Nat) :
    (packedExponent count).toNat = 1075 - spare count := by
  rw [packedExponent, BitVec.toNat_ofNat]
  omega

/-- A count is packed as a normal number: its exponent is neither of the reserved ones. -/
theorem packedExponent_ne (count : Nat) {reserved : BitVec 11}
    (outside : reserved.toNat < 1023 ∨ 1075 < reserved.toNat) :
    packedExponent count ≠ reserved := by
  rintro rfl
  have value := packedExponent_toNat count
  have inRange := spare_le count
  omega

theorem pack_eq (positive : 0 < count) (fits : count < 2 ^ 53) :
    pack .binary64 (unpacked count positive) = packComponents .binary64 .positive
      (packedExponent count) (BitVec.ofNat 52 (count * 2 ^ spare count)) := by
  have full : (count * 2 ^ spare count).log2 + 1 = Format.binary64.mantissaBits := by
    rw [log2_mul_two_pow positive, log2_add_spare positive fits]
    rfl
  have inRange := spare_le count
  have biased : (-(spare count : Int) + (Format.binary64.exponentBias : Int) +
      (Format.binary64.mantissaBitsWithoutImplicit : Int)).toNat = 1075 - spare count := by
    change (-(spare count : Int) + 1023 + 52).toNat = _
    omega
  have finite : ¬ 2 ^ Format.binary64.exponentBits ≤ 1075 - spare count + 1 := by
    change ¬ 2048 ≤ 1075 - spare count + 1
    omega
  simp only [unpacked, pack, biased, if_neg finite, if_pos full, packedExponent]

theorem unpack_pack (positive : 0 < count) (fits : count < 2 ^ 53) :
    (Float.Model.pack (unpacked count positive)).unpack = unpacked count positive := by
  obtain ⟨lower, upper⟩ := significand_bounds positive fits
  have inRange := spare_le count
  have exponentEq : ((packedExponent count).toNat : Int) -
      ((Format.binary64.exponentBias : Int) + (52 : Nat)) = -(spare count : Int) := by
    rw [packedExponent_toNat]
    change ((1075 - spare count : Nat) : Int) - (1023 + 52) = _
    omega
  have notLast : packedExponent count ≠ -1#11 := packedExponent_ne count (.inr (by decide))
  have notFirst : packedExponent count ≠ 0#11 := packedExponent_ne count (.inl (by decide))
  change unpack .binary64 (pack .binary64 (unpacked count positive)) = _
  rw [pack_eq positive fits]
  simp only [unpack, unpackMantissa_packComponents, unpackExponent_packComponents,
    unpackSign_packComponents, if_neg notLast, if_neg notFirst, exponentEq,
    toNat_leading_append lower upper, unpacked]
  rfl

/-! ## Counting -/

theorem unpack_one :
    (1.0 : Float).toModel.unpack = .finite .positive (2 ^ 52) (-52) (by decide) :=
  rfl

theorem ofNat_eq (positive : 0 < count) (fits : count < 2 ^ 53) :
    UnpackedFloat.ofNat .binary64 count = unpacked count positive := by
  have normalized := normalize_eq positive fits 0
  rw [Nat.pow_zero, Nat.mul_one] at normalized
  exact normalized

theorem mul_one_eq (positive : 0 < count) (fits : count < 2 ^ 53) :
    mul .binary64 (unpacked count positive) (.finite .positive (2 ^ 52) (-52) (by decide)) =
      unpacked count positive := by
  have product : count * 2 ^ spare count * 2 ^ 52 = count * 2 ^ (spare count + 52) := by
    rw [Nat.mul_assoc, ← Nat.pow_add]
  have exponentEq : -(spare count : Int) + -52 = -((spare count + 52 : Nat) : Int) := by omega
  have rounded := roundWithAccuracy_eq positive fits (Nat.le_add_right (spare count) 52)
  rw [← product, ← exponentEq] at rounded
  exact rounded

theorem add_one_eq (positive : 0 < count) (fits : count + 1 < 2 ^ 53) :
    add .binary64 (unpacked count positive) (.finite .positive (2 ^ 52) (-52) (by decide)) =
      unpacked (count + 1) (Nat.succ_pos count) := by
  have places := spare_le count
  have smaller : min (-(spare count : Int)) (-52) = -52 := by omega
  have amount : (-(spare count : Int) - -52).toNat = 52 - spare count := by omega
  have aligned : count * 2 ^ spare count * 2 ^ (52 - spare count) = count * 2 ^ 52 := by
    rw [Nat.mul_assoc, ← Nat.pow_add, Nat.add_sub_cancel' places]
  have sum : Sign.positive.apply ((count * 2 ^ 52 : Nat) : Int) +
      Sign.positive.apply ((2 ^ 52 : Nat) : Int) = (((count + 1) * 2 ^ 52 : Nat) : Int) := by
    simp only [Sign.apply]
    omega
  simp only [unpacked, add, decreaseExponent, smaller, amount, Nat.shiftLeft_eq, aligned]
  have normalized := normalize_eq (Nat.succ_pos count) fits 52
  rw [← sum] at normalized
  exact normalized

theorem toFloat_eq (positive : 0 < count) (fits : count < 2 ^ 53) :
    count.toFloat = .ofModel (.pack (unpacked count positive)) := by
  have word : count.toUInt64.toNat = count := by
    change count % 2 ^ 64 = count
    omega
  have converted : count.toUInt64.toFloat = .ofModel (.pack (unpacked count positive)) := by
    change Float.ofModel (.pack (UnpackedFloat.ofNat .binary64 count.toUInt64.toNat)) = _
    rw [word, ofNat_eq positive fits]
  change Float.ofScientific count false 0 = _
  have one : Float.exactlyRepresentablePowersOfTen[0] = 1.0 := by decide
  rw [Float.ofScientific, dif_pos ⟨fits, by decide⟩, if_neg (by decide), converted, one]
  change Float.ofModel (.pack (mul .binary64 (Float.Model.pack (unpacked count positive)).unpack
    (1.0 : Float).toModel.unpack)) = _
  rw [unpack_pack positive fits, unpack_one, mul_one_eq positive fits]

theorem toFloat_add_one (fits : count + 1 < 2 ^ 53) :
    count.toFloat + 1.0 = (count + 1).toFloat := by
  rcases Nat.eq_zero_or_pos count with rfl | positive
  · decide
  · have small : count < 2 ^ 53 := Nat.lt_of_succ_lt fits
    rw [toFloat_eq positive small, toFloat_eq (Nat.succ_pos count) fits]
    change Float.ofModel (.pack (add .binary64 (Float.Model.pack (unpacked count positive)).unpack
      (1.0 : Float).toModel.unpack)) = _
    rw [unpack_pack positive small, unpack_one, add_one_eq positive fits]

theorem toFloat_not_zero (positive : 0 < count) (fits : count < 2 ^ 53) :
    (count.toFloat == 0.0) = false := by
  rw [toFloat_eq positive fits]
  change UnpackedFloat.beq (Float.Model.pack (unpacked count positive)).unpack
    (.zero .positive) = false
  rw [unpack_pack positive fits]
  rfl

end WordStem.ExactCount
