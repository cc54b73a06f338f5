import Mathlib.Algebra.Order.Field.Rat
import Mathlib.Algebra.Order.Field.Power
import Mathlib.Order.Monotone.Basic
import Mathlib.Tactic.Ring
import Mathlib.Tactic.Linarith
import LazyTensor.Float.Format

/-! Patterns in order. Without their signs the patterns of a format count up from zero, and the
numbers that they stand for go up with them: all are multiples of the least positive number, and the
distance to the next one doubles from one exponent to the next. The pattern of infinity takes its
place in the row, as the number that would come after the greatest.
-/

namespace LazyTensor.Float

/-- The number that a magnitude stands for. -/
def Magnitude.value (magnitude : Magnitude) : ℚ :=
  magnitude.significand * 2 ^ magnitude.exponent

namespace Format

/-- A format whose significands have a fraction, and whose exponents reach as far below zero as the
fraction has places.
-/
structure Regular (format : Format) : Prop where
  fraction : 1 ≤ format.fractionBits
  range : format.fractionBits + 3 ≤ 2 ^ (format.exponentBits - 1)

theorem binary32_regular : Regular binary32 := ⟨by decide, by decide⟩

theorem binary64_regular : Regular binary64 := ⟨by decide, by decide⟩

/-- How many times the least positive number the number of an unsigned pattern is. -/
def units (format : Format) (bits : Nat) : Nat :=
  let field := bits / 2 ^ format.fractionBits
  let fraction := bits % 2 ^ format.fractionBits
  if field = 0 then fraction else (2 ^ format.fractionBits + fraction) * 2 ^ (field - 1)

variable (format : Format)

-----------------------------------------------------------------------------------------
-- The row of patterns
-----------------------------------------------------------------------------------------

/-- A significand at a shift, which are added to a pattern, is that many units. A significand
without a leading bit needs the least shift, and one that is too long by one carries into the shift.
-/
theorem units_packed {shift significand : Nat} (few : significand ≤ 2 ^ (format.fractionBits + 1))
    (normal : shift = 0 ∨ 2 ^ format.fractionBits ≤ significand)
    : format.units (shift * 2 ^ format.fractionBits + significand) = significand * 2 ^ shift := by
  have positive : 0 < 2 ^ format.fractionBits := Nat.two_pow_pos _
  rw [Nat.pow_succ] at few
  rcases Nat.lt_or_ge significand (2 ^ format.fractionBits) with small | large
  · obtain rfl := normal.resolve_right small.not_ge
    rw [units, Nat.zero_mul, Nat.zero_add, Nat.div_eq_of_lt small, Nat.mod_eq_of_lt small]
    simp
  · obtain ⟨fraction, rfl⟩ := Nat.exists_eq_add_of_le large
    have above
        : shift * 2 ^ format.fractionBits + (2 ^ format.fractionBits + fraction)
          = fraction + (shift + 1) * 2 ^ format.fractionBits := by
      ring
    rw [units, above, Nat.add_mul_div_right _ _ positive, Nat.add_mul_mod_self_right]
    rcases Nat.lt_or_ge fraction (2 ^ format.fractionBits) with short | carried
    · rw [Nat.div_eq_of_lt short, Nat.mod_eq_of_lt short]
      simp
    · obtain rfl : fraction = 2 ^ format.fractionBits := by omega
      rw [Nat.div_self positive, Nat.mod_self]
      simp only [Nat.add_eq_zero_iff, Nat.one_ne_zero, false_and, if_false, Nat.add_zero]
      have next : 1 + (shift + 1) - 1 = shift + 1 := by omega
      rw [next, Nat.pow_succ]
      ring

/-- Every pattern is a significand at a shift. -/
theorem exists_packed (bits : Nat)
    : ∃ shift significand,
        bits = shift * 2 ^ format.fractionBits + significand
        ∧ significand < 2 ^ (format.fractionBits + 1)
        ∧ (shift = 0 ∨ 2 ^ format.fractionBits ≤ significand) := by
  have positive : 0 < 2 ^ format.fractionBits := Nat.two_pow_pos _
  have split := Nat.div_add_mod' bits (2 ^ format.fractionBits)
  have short := Nat.mod_lt bits positive
  rcases Nat.eq_zero_or_pos (bits / 2 ^ format.fractionBits) with none | some
  · refine ⟨0, bits, by omega, ?_, Or.inl rfl⟩
    rw [none, Nat.zero_mul, Nat.zero_add] at split
    rw [Nat.pow_succ]
    omega
  · obtain ⟨shift, field⟩ := Nat.exists_eq_succ_of_ne_zero some.ne'
    refine ⟨shift, 2 ^ format.fractionBits + bits % 2 ^ format.fractionBits, ?_, ?_,
      Or.inr (Nat.le_add_right _ _)⟩
    · rw [field, Nat.succ_mul] at split
      omega
    · rw [Nat.pow_succ]
      omega

/-- The next pattern is one unit more at the shift of the pattern. -/
theorem units_succ {shift significand : Nat} (few : significand < 2 ^ (format.fractionBits + 1))
    (normal : shift = 0 ∨ 2 ^ format.fractionBits ≤ significand)
    : format.units (shift * 2 ^ format.fractionBits + significand + 1)
      = (significand + 1) * 2 ^ shift :=
  format.units_packed (Nat.succ_le_of_lt few) (normal.imp_right Nat.le_succ_of_le)

theorem units_strictMono : StrictMono format.units := by
  refine strictMono_nat_of_lt_succ fun bits => ?_
  obtain ⟨shift, significand, rfl, few, normal⟩ := format.exists_packed bits
  rw [format.units_succ few normal, format.units_packed few.le normal]
  exact Nat.mul_lt_mul_of_pos_right (Nat.lt_succ_self _) (Nat.two_pow_pos _)

theorem units_zero : format.units 0 = 0 := by
  simp [units]

-----------------------------------------------------------------------------------------
-- Fields of patterns
-----------------------------------------------------------------------------------------

theorem infinity_eq
    : format.infinity = (2 ^ format.exponentBits - 1) * 2 ^ format.fractionBits := by
  rw [infinity, Nat.shiftLeft_eq, Nat.one_shiftLeft]

theorem infinity_lt : format.infinity < 2 ^ format.signPosition := by
  rw [infinity_eq, signPosition, Nat.add_comm, Nat.pow_add]
  have positive := Nat.two_pow_pos format.exponentBits
  exact Nat.mul_lt_mul_of_pos_right (by omega) (Nat.two_pow_pos _)

theorem unsigned_eq (bits : Nat) : format.unsigned bits = bits % 2 ^ format.signPosition := by
  rw [unsigned, Nat.one_shiftLeft]

theorem unsigned_of_lt {bits : Nat} (few : bits < 2 ^ format.signPosition)
    : format.unsigned bits = bits := by
  rw [unsigned_eq, Nat.mod_eq_of_lt few]

theorem unsigned_withSign (negative : Bool) {bits : Nat} (few : bits < 2 ^ format.signPosition)
    : format.unsigned (format.withSign negative bits) = bits := by
  cases negative
  · exact format.unsigned_of_lt few
  · rw [withSign, if_pos rfl, Nat.one_shiftLeft, unsigned_eq, Nat.add_mod_left,
      Nat.mod_eq_of_lt few]

theorem isNegative_withSign (negative : Bool) {bits : Nat} (few : bits < 2 ^ format.signPosition)
    : format.isNegative (format.withSign negative bits) = negative := by
  cases negative
  · exact Nat.testBit_lt_two_pow few
  · rw [withSign, if_pos rfl, Nat.one_shiftLeft, isNegative, Nat.testBit_two_pow_add_eq,
      Nat.testBit_lt_two_pow few]
    rfl

/-- A pattern that is not too long is an unsigned one with a sign. -/
theorem withSign_unsigned {bits : Nat} (few : bits < 2 ^ (format.signPosition + 1))
    : format.withSign (format.isNegative bits) (format.unsigned bits) = bits := by
  rw [unsigned_eq, isNegative, Nat.testBit_eq_decide_div_mod_eq, withSign, Nat.one_shiftLeft]
  have split := Nat.div_add_mod' bits (2 ^ format.signPosition)
  have two : bits / 2 ^ format.signPosition < 2 := by
    rw [Nat.div_lt_iff_lt_mul (Nat.two_pow_pos _), Nat.mul_comm, ← Nat.pow_succ]
    exact few
  rcases Nat.lt_or_ge (bits / 2 ^ format.signPosition) 1 with none | one
  · have none := Nat.lt_one_iff.mp none
    rw [none, Nat.zero_mul, Nat.zero_add] at split
    simp [none, split]
  · have one := Nat.le_antisymm (Nat.lt_succ_iff.mp two) one
    rw [one, Nat.one_mul] at split
    simp [one, split]

-----------------------------------------------------------------------------------------
-- The numbers of patterns
-----------------------------------------------------------------------------------------

theorem fraction_unsigned (bits : Nat)
    : format.unsigned bits % 2 ^ format.fractionBits = bits % 2 ^ format.fractionBits := by
  rw [unsigned_eq]
  exact Nat.mod_mod_of_dvd _ (Nat.pow_dvd_pow 2 (Nat.le_add_right _ _))

/-- A sign does not change a magnitude. -/
theorem magnitude_unsigned (bits : Nat)
    : format.magnitude (format.unsigned bits) = format.magnitude bits := by
  have twice : format.unsigned (format.unsigned bits) = format.unsigned bits :=
    format.unsigned_of_lt (by rw [unsigned_eq]; exact Nat.mod_lt _ (Nat.two_pow_pos _))
  simp only [magnitude, Nat.one_shiftLeft, fraction_unsigned, twice]

/-- The number of a pattern is as many units as the pattern counts. -/
theorem value_magnitude (bits : Nat)
    : (format.magnitude bits).value
      = format.units (format.unsigned bits) * 2 ^ format.leastExponent := by
  simp only [magnitude, units, fraction_unsigned, Nat.one_shiftLeft, Nat.shiftRight_eq_div_pow]
  split
  · rfl
  · rw [Magnitude.value, zpow_add₀ two_ne_zero, zpow_natCast]
    push_cast
    ring

/-- The number of a finite pattern, with its sign. -/
def number (bits : Nat) : ℚ :=
  if format.isNegative bits then -(format.magnitude bits).value else (format.magnitude bits).value

/-- An unsigned pattern stands for its magnitude. -/
theorem number_of_lt {bits : Nat} (few : bits < 2 ^ format.signPosition)
    : format.number bits = (format.magnitude bits).value := by
  have positive : format.isNegative bits = false := format.isNegative_withSign false few
  rw [number, positive, if_neg Bool.false_ne_true]

/-- The significand of a pattern, its exponent as a shift, and the units that they make. -/
theorem magnitude_packed {shift significand : Nat}
    (few : significand < 2 ^ (format.fractionBits + 1))
    (normal : shift = 0 ∨ 2 ^ format.fractionBits ≤ significand)
    (finite : shift * 2 ^ format.fractionBits + significand < 2 ^ format.signPosition)
    : format.magnitude (shift * 2 ^ format.fractionBits + significand)
      = ⟨significand, format.leastExponent + shift⟩ := by
  have positive : 0 < 2 ^ format.fractionBits := Nat.two_pow_pos _
  rw [Nat.pow_succ] at few
  rw [magnitude, format.unsigned_of_lt finite, Nat.shiftRight_eq_div_pow, Nat.one_shiftLeft]
  rcases Nat.lt_or_ge significand (2 ^ format.fractionBits) with small | large
  · obtain rfl := normal.resolve_right small.not_ge
    rw [Nat.zero_mul, Nat.zero_add, Nat.div_eq_of_lt small, Nat.mod_eq_of_lt small]
    simp
  · obtain ⟨fraction, rfl⟩ := Nat.exists_eq_add_of_le large
    have short : fraction < 2 ^ format.fractionBits := by omega
    have above
        : shift * 2 ^ format.fractionBits + (2 ^ format.fractionBits + fraction)
          = fraction + (shift + 1) * 2 ^ format.fractionBits := by
      ring
    rw [above, Nat.add_mul_div_right _ _ positive, Nat.add_mul_mod_self_right,
      Nat.div_eq_of_lt short, Nat.mod_eq_of_lt short]
    simp

end Format

end LazyTensor.Float
