import Mathlib
import WordStem.FloatMagnitude

/-! # The order of numbers

Floating-point numbers are compared by their signs, exponents and mantissas. Nothing is below or
above a value that is not a number, and the two zeros are equal. Main statement: `compare_unpacks`,
that numbers compare as their bits do that remain without the sign, counted below zero under a minus
sign. -/
namespace WordStem

open Float.Model Float.Model.UnpackedFloat

/-- Two pairs in the same order compare alike. -/
theorem compare_congr {α β : Type} [LinearOrder α] [LinearOrder β] {a b : α} {c d : β}
    (below : a < b ↔ c < d) (above : b < a ↔ d < c) : compare a b = compare c d := by
  obtain less | rfl | greater := lt_trichotomy a b
  · rw [compare_lt_iff_lt.mpr less, compare_lt_iff_lt.mpr (below.mp less)]
  · have equal : c = d := le_antisymm (not_lt.mp (mt above.mpr (lt_irrefl _)))
      (not_lt.mp (mt below.mpr (lt_irrefl _)))
    rw [compare_eq_iff_eq.mpr rfl, compare_eq_iff_eq.mpr equal]
  · rw [compare_gt_iff_gt.mpr greater, compare_gt_iff_gt.mpr (above.mp greater)]

/-! ## The fields of a number -/

theorem toNat_unpackMantissa (bits : BitVec 64) :
    (@unpackMantissa Format.binary64 bits).toNat = bits.toNat % 2 ^ 52 := by
  simp only [unpackMantissa, BitVec.toNat_cast, BitVec.extractLsb_toNat, Nat.shiftRight_zero]

theorem toNat_unpackExponent (bits : BitVec 64) :
    (@unpackExponent Format.binary64 bits).toNat = bits.toNat / 2 ^ 52 % 2 ^ 11 := by
  simp only [unpackExponent, BitVec.toNat_cast, BitVec.extractLsb_toNat, Nat.shiftRight_eq_div_pow]

theorem toNat_unpackSign (bits : BitVec 64) :
    (@unpackSign Format.binary64 bits).toNat = bits.toNat / 2 ^ 63 % 2 := by
  simp only [unpackSign, BitVec.toNat_cast, BitVec.extractLsb_toNat, Nat.shiftRight_eq_div_pow]

/-- A mantissa with its leading one, which is not stored. -/
theorem toNat_leading (mantissa : BitVec 52) :
    (1#1 ++ mantissa).toNat = 2 ^ 52 + mantissa.toNat := by
  rw [BitVec.toNat_append, ← Nat.shiftLeft_add_eq_or_of_lt mantissa.isLt]
  rfl

def signOf (value : Float) : Sign :=
  if hasMinusSign value then .negative else .positive

/-- The bits of a number without its sign, as a number. -/
def magnitudeBits (value : Float) : Nat :=
  value.toBits.toNat % 2 ^ 63

/-- The bits of the infinities without the sign, above those of all finite numbers. -/
def infinityBits : Nat := 2047 * 2 ^ 52

theorem hasMinusSign_iff (value : Float) :
    hasMinusSign value = true ↔ value.toBits.toNat / 2 ^ 63 = 1 :=
  beq_iff_eq

theorem ofBitVec_unpackSign (value : Float) :
    Sign.ofBitVec (@unpackSign Format.binary64 value.toBits.toBitVec) = signOf value := by
  have sign : (@unpackSign Format.binary64 value.toBits.toBitVec).toNat =
      value.toBits.toNat / 2 ^ 63 % 2 := toNat_unpackSign _
  have below := value.toBits.toNat_lt
  have positive : @unpackSign Format.binary64 value.toBits.toBitVec = 0#1 ↔
      value.toBits.toNat / 2 ^ 63 ≠ 1 := by
    rw [← BitVec.toNat_inj, sign, BitVec.toNat_ofNat]
    omega
  rw [Sign.ofBitVec, signOf]
  by_cases minus : value.toBits.toNat / 2 ^ 63 = 1
  · rw [if_neg (mt positive.mp (not_not.mpr minus)), if_pos ((hasMinusSign_iff value).mpr minus)]
  · rw [if_pos (positive.mpr minus), if_neg (mt (hasMinusSign_iff value).mp minus)]

theorem magnitudeBits_eq (value : Float) :
    magnitudeBits value = (@unpackExponent Format.binary64 value.toBits.toBitVec).toNat * 2 ^ 52 +
      (@unpackMantissa Format.binary64 value.toBits.toBitVec).toNat := by
  have below := value.toBits.toNat_lt
  have word : value.toBits.toBitVec.toNat = value.toBits.toNat := rfl
  rw [toNat_unpackExponent, toNat_unpackMantissa, word, magnitudeBits]
  omega

/-- Bits spell a finite number other than zero: the exponent counts the binades above the smallest
one, and a mantissa is full in all binades but that one. -/
structure Spells (bits mantissa : Nat) (exponent : Int) : Prop where
  bits_eq : (bits : Int) = (exponent + 1074) * 2 ^ 52 + mantissa
  positive : 0 < mantissa
  lowest : -1074 ≤ exponent
  highest : exponent ≤ 971
  short : mantissa < 2 ^ 53
  full : exponent = -1074 ∨ 2 ^ 52 ≤ mantissa

theorem Spells.between {bits mantissa : Nat} {exponent : Int}
    (spells : Spells bits mantissa exponent) : 0 < bits ∧ bits < infinityBits := by
  have ⟨equation, positive, lowest, highest, short, full⟩ := spells
  rw [infinityBits]
  omega

/-- Exponents decide before mantissas, and so do the bits that spell them. -/
theorem compare_of_spells {bits₁ bits₂ mantissa₁ mantissa₂ : Nat} {exponent₁ exponent₂ : Int}
    (first : Spells bits₁ mantissa₁ exponent₁) (second : Spells bits₂ mantissa₂ exponent₂) :
    (compare exponent₁ exponent₂).then (compare mantissa₁ mantissa₂) = compare bits₁ bits₂ := by
  have ⟨equation₁, _, _, _, short₁, full₁⟩ := first
  have ⟨equation₂, _, _, _, short₂, full₂⟩ := second
  obtain less | rfl | greater := lt_trichotomy exponent₁ exponent₂
  · rw [compare_lt_iff_lt.mpr less, compare_lt_iff_lt.mpr (by omega : bits₁ < bits₂)]
    rfl
  · rw [compare_eq_iff_eq.mpr rfl, Ordering.eq_then]
    exact compare_congr (by omega) (by omega)
  · rw [compare_gt_iff_gt.mpr greater, compare_gt_iff_gt.mpr (by omega : bits₂ < bits₁)]
    rfl

/-- The parts of a number as its bits determine them. -/
inductive Unpacks (value : Float) : UnpackedFloat → Prop
  | notANumber (bits : value.toBits.toBitVec = packedNaN Format.binary64) :
    Unpacks value .notANumber
  | infinity (bits : magnitudeBits value = infinityBits) :
    Unpacks value (.infinity (signOf value))
  | zero (bits : magnitudeBits value = 0) :
    Unpacks value (.zero (signOf value))
  | finite (mantissa : Nat) (exponent : Int) (positive : 0 < mantissa)
      (bits : Spells (magnitudeBits value) mantissa exponent) :
    Unpacks value (.finite (signOf value) mantissa exponent positive)

theorem unpacks (value : Float) : Unpacks value value.toModel.unpack := by
  have magnitude := magnitudeBits_eq value
  have bias : ((Format.binary64.exponentBias : Nat) : Int) +
      (Format.binary64.mantissaBitsWithoutImplicit : Nat) = 1075 := rfl
  change Unpacks value (UnpackedFloat.unpack Format.binary64 value.toBits.toBitVec)
  rw [UnpackedFloat.unpack]
  simp only [ofBitVec_unpackSign, bias]
  set exponent := @unpackExponent Format.binary64 value.toBits.toBitVec
  set mantissa := @unpackMantissa Format.binary64 value.toBits.toBitVec
  have narrow : exponent.toNat < 2 ^ 11 := exponent.isLt
  have short : mantissa.toNat < 2 ^ 52 := mantissa.isLt
  split
  · next top =>
    split
    · next whole =>
      have whole : mantissa = 0#52 := whole
      refine .infinity ?_
      rw [magnitude, top, whole]
      rfl
    · next broken => exact .notANumber (value.toModel.valid.eq_packedNaN top broken)
  · next notTop =>
    have notTop : exponent.toNat ≠ 2047 := fun top => notTop (BitVec.eq_of_toNat_eq top)
    split
    · next bottom =>
      have bottom : exponent.toNat = 0 := congrArg BitVec.toNat bottom
      split
      · next nothing =>
        have nothing : mantissa = 0#52 := nothing
        refine .zero ?_
        rw [magnitude, bottom, nothing]
        rfl
      · next something =>
        have something : mantissa.toNat ≠ 0 :=
          fun nothing => something (BitVec.eq_of_toNat_eq nothing)
        refine .finite mantissa.toNat _ _ ?_
        constructor <;> omega
    · next notBottom =>
      have notBottom : exponent.toNat ≠ 0 :=
        fun bottom => notBottom (BitVec.eq_of_toNat_eq bottom)
      have leading : (1#1 ++ mantissa).toNat = 2 ^ 52 + mantissa.toNat := toNat_leading mantissa
      refine .finite _ _ _ ?_
      rw [leading]
      constructor <;> omega

/-! ## Comparing numbers -/

/-- The bits of a number without its sign, counted below zero under a minus sign. -/
def signedBits (value : Float) : Int :=
  (signOf value).apply (magnitudeBits value)

theorem compare_natCast (first second : Nat) :
    compare (first : Int) second = compare first second :=
  compare_congr Int.ofNat_lt Int.ofNat_lt

theorem compare_neg (first second : Int) :
    compare (-first) (-second) = (compare first second).swap := by
  rw [← Std.OrientedOrd.eq_swap]
  exact compare_congr Int.neg_lt_neg_iff Int.neg_lt_neg_iff

theorem compare_unpacks {x y : Float} {u v : UnpackedFloat} (fromX : Unpacks x u)
    (fromY : Unpacks y v) (uIsNumber : u.isNaN = false) (vIsNumber : v.isNaN = false) :
    u.compare v = some (compare (signedBits x) (signedBits y)) := by
  symm
  rw [signedBits, signedBits]
  cases fromX with
  | notANumber => cases uIsNumber
  | infinity bits₁ | zero bits₁ =>
    cases fromY with
    | notANumber => cases vIsNumber
    | infinity bits₂ | zero bits₂ =>
      rw [bits₁, bits₂]
      cases signOf x <;> cases signOf y <;> rfl
    | finite _ _ _ bits₂ =>
      have between := bits₂.between
      cases signOf x <;> cases signOf y <;>
        simp only [UnpackedFloat.compare, Sign.apply, Option.some.injEq, compare_lt_iff_lt,
          compare_gt_iff_gt] <;> omega
  | finite _ _ _ bits₁ =>
    have between := bits₁.between
    cases fromY with
    | notANumber => cases vIsNumber
    | infinity bits₂ | zero bits₂ =>
      cases signOf x <;> cases signOf y <;>
        simp only [UnpackedFloat.compare, Sign.apply, Option.some.injEq, compare_lt_iff_lt,
          compare_gt_iff_gt] <;> omega
    | finite _ _ _ bits₂ =>
      have between := bits₂.between
      cases signOf x <;> cases signOf y
      · simp only [UnpackedFloat.compare, Sign.apply, compare_neg, compare_natCast,
          compare_of_spells bits₁ bits₂]
      · simp only [UnpackedFloat.compare, Sign.apply, Option.some.injEq, compare_lt_iff_lt]
        omega
      · simp only [UnpackedFloat.compare, Sign.apply, Option.some.injEq, compare_gt_iff_gt]
        omega
      · simp only [UnpackedFloat.compare, Sign.apply, compare_natCast,
          compare_of_spells bits₁ bits₂]

theorem float_lt_iff (x y : Float) :
    x < y ↔ x.toModel.unpack.compare y.toModel.unpack = some .lt := by
  change decide (x.toModel < y.toModel) = true ↔ _
  rw [decide_eq_true_iff]
  change UnpackedFloat.lt _ _ = true ↔ _
  rw [UnpackedFloat.lt, beq_iff_eq]

theorem float_beq_iff (x y : Float) :
    (x == y) = true ↔ x.toModel.unpack.compare y.toModel.unpack = some .eq := by
  change UnpackedFloat.beq _ _ = true ↔ _
  rw [UnpackedFloat.beq, beq_iff_eq]

theorem compare_of_isNaN {u v : UnpackedFloat} (notNumber : u.isNaN = true ∨ v.isNaN = true) :
    u.compare v = none := by
  cases u with
  | notANumber => rfl
  | infinity sign | zero sign | finite sign =>
    cases v with
    | notANumber => cases sign <;> rfl
    | infinity | zero | finite => exact notNumber.elim nofun nofun

/-- What is above something is a number. -/
theorem isNaN_of_le {x y : Float} (le : x ≤ y) : y.isNaN = false := by
  rw [← Bool.not_eq_true]
  intro broken
  change decide (x.toModel ≤ y.toModel) = true at le
  rw [decide_eq_true_iff] at le
  change UnpackedFloat.le _ _ = true at le
  rw [UnpackedFloat.le, compare_of_isNaN (.inr broken)] at le
  cases le

theorem signedBits_eq (value : Float) :
    signedBits value = if hasMinusSign value then -(magnitudeBits value : Int)
      else magnitudeBits value := by
  rw [signedBits, signOf]
  split <;> rfl

theorem toBits_of_isNaN {value : Float} (notNumber : value.isNaN = true) :
    value.toBits.toBitVec = packedNaN Format.binary64 := by
  change value.toModel.unpack.isNaN = true at notNumber
  have parts := unpacks value
  generalize value.toModel.unpack = unpacked at parts notNumber
  cases parts with
  | notANumber bits => exact bits
  | infinity | zero | finite => cases notNumber

end WordStem
