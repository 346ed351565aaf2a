import WordStem.TomlScalar

/-! # Numbers in TOML

A number is written with its decimal digits. They begin with a zero only if they are a single zero,
and they hold no sign, no underscore and no mark of another base, so they are read as a decimal
number: the one that is written, if it fits into the numbers of TOML. Main statement:
`scalar?_toDigits`. -/
namespace WordStem.Toml

theorem ungroup?_of_digits {digits : List Char} (nonempty : digits ≠ [])
    (areDigits : ∀ digit ∈ digits, digit.isDigit = true) :
    ungroup? Char.isDigit digits = some digits := by
  induction digits with
  | nil => exact absurd rfl nonempty
  | cons digit others ih =>
    obtain ⟨first, rest⟩ := List.forall_mem_cons.mp areDigits
    cases others with
    | nil => simp [ungroup?, first]
    | cons second others =>
      have noUnderscore : second ≠ '_' := by
        rintro rfl
        exact absurd (rest '_' List.mem_cons_self) (by decide)
      rw [ungroup?, if_pos first, ih (List.cons_ne_nil _ _) rest]
      · rfl
      · intro isEmpty
        cases isEmpty
      · intro others underscore
        exact noUnderscore (List.cons.inj underscore).1

/-- Only the number zero is written with a leading zero. -/
theorem eq_zero_of_head?_toDigits {value : Nat} (zero : (Nat.toDigits 10 value).head? = some '0') :
    value = 0 := by
  induction value using Nat.base_induction 10 (by decide) with
  | single digit small =>
    rw [Nat.toDigits_of_lt_base small, List.head?_cons, Option.some.injEq] at zero
    have digits : ∀ digit < 10, Nat.digitChar digit = '0' → digit = 0 := by decide
    exact digits digit small zero
  | digit leading digit small positive ih =>
    obtain ⟨first, others, written⟩ :=
      List.exists_cons_of_ne_nil (Nat.toDigits_ne_nil (n := leading) (b := 10))
    rw [← Nat.toDigits_append_toDigits (by decide) positive small, written] at zero
    have isZero : leading = 0 := ih (by rw [written]; exact zero)
    omega

theorem wholeDigits?_toDigits (value : Nat) :
    wholeDigits? (Nat.toDigits 10 value) = some (Nat.toDigits 10 value) := by
  have areDigits : ∀ digit ∈ Nat.toDigits 10 value, digit.isDigit = true := fun digit member =>
    Nat.isDigit_of_mem_toDigits (by decide) (by decide) member
  rw [wholeDigits?, ungroup?_of_digits Nat.toDigits_ne_nil areDigits]
  split
  case h_1 digits second others leading =>
    have written := Option.some.inj leading
    have isZero : value = 0 := eq_zero_of_head?_toDigits (by rw [written]; rfl)
    rw [isZero] at written
    cases written
  case h_2 => rfl

theorem decimal?_toDigits (value : Nat) :
    decimal? (Nat.toDigits 10 value) = some (value : Int) := by
  rw [decimal?, wholeDigits?_toDigits, Option.map_some, Nat.ofDigitChars_ten_toDigits]
  rfl


theorem not_mem_toDigits {mark : Char} (noDigit : mark.isDigit = false) (value : Nat) :
    mark ∉ Nat.toDigits 10 value := by
  intro member
  rw [Nat.isDigit_of_mem_toDigits (by decide) (by decide) member] at noDigit
  cases noDigit

/-- The digits of a number have no sign and name no base in front of them. -/
theorem toDigits_ne_cons {value : Nat} {first : Char} (noDigit : first.isDigit = false)
    (others : List Char) : Nat.toDigits 10 value ≠ first :: others := by
  intro written
  exact not_mem_toDigits noDigit value (by rw [written]; exact List.mem_cons_self)

theorem toDigits_ne_cons_cons {value : Nat} {first second : Char} (noDigit : second.isDigit = false)
    (others : List Char) : Nat.toDigits 10 value ≠ first :: second :: others := by
  intro written
  exact not_mem_toDigits noDigit value
    (by rw [written]; exact List.mem_cons_of_mem _ List.mem_cons_self)

theorem isWhole_toDigits (value : Nat) : isWhole (Nat.toDigits 10 value) = true := by
  rw [isWhole]
  · rw [isDecimal, wholeDigits?_toDigits]
    rfl
  · exact toDigits_ne_cons_cons rfl
  · exact toDigits_ne_cons_cons rfl
  · exact toDigits_ne_cons_cons rfl
  · exact toDigits_ne_cons rfl
  · exact toDigits_ne_cons rfl

theorem wholeNumber?_toDigits {value : Nat} (small : value < Nat.pow 2 128) :
    wholeNumber? (Nat.toDigits 10 value) = some (value : Int) := by
  have fitting : fits value = true := by
    simp only [fits, Bool.and_eq_true, decide_eq_true_eq]
    omega
  rw [wholeNumber?]
  · rw [decimal?_toDigits, Option.filter_some, if_pos fitting]
  · exact toDigits_ne_cons_cons rfl
  · exact toDigits_ne_cons_cons rfl
  · exact toDigits_ne_cons_cons rfl
  · exact toDigits_ne_cons rfl
  · exact toDigits_ne_cons rfl

theorem scalar?_toDigits {value : Nat} (small : value < Nat.pow 2 128) :
    scalar? (Nat.toDigits 10 value) = some (.integer value) := by
  have noTrue : Nat.toDigits 10 value ≠ "true".toList :=
    toDigits_ne_cons (rfl : 't'.isDigit = false) _
  have noFalse : Nat.toDigits 10 value ≠ "false".toList :=
    toDigits_ne_cons (rfl : 'f'.isDigit = false) _
  rw [scalar?, if_neg noTrue, if_neg noFalse, if_pos (isWhole_toDigits value),
    wholeNumber?_toDigits small]

end WordStem.Toml
