import Mathlib.Algebra.Order.Field.Basic
import Mathlib.Data.Nat.Cast.Field
import Mathlib.Tactic.FieldSimp
import LazyTensor.Proofs.Float.Nearest

/-! Rounding to the nearest number. A ratio is rounded by the place of its leading bit and the
nearest integer in units of its last place, which puts it into the cell of the pattern that comes
out. So the conversion between formats is a correct rounding.
-/

namespace LazyTensor.Float

/-- A power as a ratio of two powers, one of which is one. -/
theorem zpow_eq_div {base : ℚ} (other : base ≠ 0) (exponent : ℤ)
    : base ^ exponent = base ^ exponent.toNat / base ^ (-exponent).toNat := by
  rw [eq_div_iff (pow_ne_zero _ other), ← zpow_natCast, ← zpow_natCast, ← zpow_add₀ other]
  congr 1
  omega

theorem Magnitude.value_nonneg (magnitude : Magnitude) : 0 ≤ magnitude.value := by
  rw [Magnitude.value]
  positivity

/-- A magnitude as the ratio that is rounded. -/
theorem Magnitude.value_eq_div (magnitude : Magnitude)
    : magnitude.value
      = (magnitude.significand <<< magnitude.exponent.toNat : Nat)
        / (1 <<< (-magnitude.exponent).toNat : Nat) := by
  rw [Magnitude.value, zpow_eq_div two_ne_zero, Nat.shiftLeft_eq, Nat.one_shiftLeft, mul_div_assoc']
  push_cast
  rfl

namespace Format

variable {format : Format} {number : ℚ} {bits : Nat}

-----------------------------------------------------------------------------------------
-- Rounding of ratios
-----------------------------------------------------------------------------------------

/-- The nearest integer is at most one half away, and is even if it is one half away. -/
theorem roundHalfEven_meets (num : Nat) {den : Nat} (positive : 0 < den)
    : let whole := roundHalfEven num den
      Meets (whole % 2 = 0) (2 * whole - 1) (2 * (num / den))
      ∧ Meets (whole % 2 = 0) (2 * (num / den)) (2 * whole + 1) := by
  have some : (0 : ℚ) < den := by exact_mod_cast positive
  have split : (num / den : ℚ) = (num / den : Nat) + (num % den : Nat) / den := by
    rw [eq_comm, add_div' _ _ _ some.ne', div_left_inj' some.ne']
    exact_mod_cast Nat.div_add_mod' num den
  have least : (0 : ℚ) ≤ (num % den : Nat) / den := by positivity
  have less : ((num % den : Nat) / den : ℚ) < 1 := by
    rw [div_lt_one some]
    exact_mod_cast Nat.mod_lt num positive
  rw [split, roundHalfEven]
  rcases Nat.lt_trichotomy (2 * (num % den)) den with below | half | above
  · have below' : (2 * ((num % den : Nat) / den) : ℚ) < 1 := by
      rw [← mul_div_assoc, div_lt_one some]
      exact_mod_cast below
    rw [Nat.compare_eq_lt.mpr below]
    exact ⟨Or.inl (by linarith), Or.inl (by linarith)⟩
  · have half' : (2 * ((num % den : Nat) / den) : ℚ) = 1 := by
      rw [← mul_div_assoc, div_eq_one_iff_eq some.ne']
      exact_mod_cast half
    rw [Nat.compare_eq_eq.mpr half]
    by_cases even : num / den % 2 = 0
    · simp only [if_pos even]
      exact ⟨Or.inl (by linarith), Or.inr ⟨by linarith, even⟩⟩
    · simp only [if_neg even]
      push_cast
      exact ⟨Or.inr ⟨by linarith, by omega⟩, Or.inl (by linarith)⟩
  · have above' : 1 < (2 * ((num % den : Nat) / den) : ℚ) := by
      rw [← mul_div_assoc, one_lt_div some]
      exact_mod_cast above
    rw [Nat.compare_eq_gt.mpr above]
    push_cast
    exact ⟨Or.inl (by linarith), Or.inl (by linarith)⟩

theorem scaled_pos (num : Nat) {den : Nat} (positive : 0 < den) (exponent : ℤ)
    : 0 < (scaled num den exponent).2 := by
  simp only [scaled, Nat.shiftLeft_eq]
  exact Nat.mul_pos positive (Nat.two_pow_pos _)

theorem scaled_eq (num den : Nat) (exponent : ℤ)
    : ((scaled num den exponent).1 / (scaled num den exponent).2 : ℚ)
      = num / den / 2 ^ exponent := by
  simp only [scaled, Nat.shiftLeft_eq]
  rw [zpow_eq_div two_ne_zero]
  push_cast
  field_simp

/-- A number lies between the powers of two around its leading bit. -/
theorem log2_bounds {number : Nat} (some : 0 < number)
    : (2 : ℚ) ^ (number.log2 : ℤ) ≤ number ∧ (number : ℚ) < 2 ^ (number.log2 + 1 : ℤ) := by
  constructor
  · rw [zpow_natCast]
    exact_mod_cast Nat.log2_self_le some.ne'
  · exact_mod_cast (Nat.lt_log2_self (n := number))

/-- The places of the leading bits of two numbers tell their ratio up to a factor of two. -/
theorem ratio_bounds {num den : Nat} (some : 0 < num) (positive : 0 < den)
    : (2 : ℚ) ^ ((num.log2 : ℤ) - den.log2 - 1) ≤ num / den
      ∧ (num / den : ℚ) < 2 ^ ((num.log2 : ℤ) - den.log2 + 1) := by
  have positive' : (0 : ℚ) < den := by exact_mod_cast positive
  obtain ⟨numLow, numHigh⟩ := log2_bounds some
  obtain ⟨denLow, denHigh⟩ := log2_bounds positive
  rw [le_div_iff₀ positive', div_lt_iff₀ positive']
  constructor
  · calc
      (2 : ℚ) ^ ((num.log2 : ℤ) - den.log2 - 1) * den
          ≤ 2 ^ ((num.log2 : ℤ) - den.log2 - 1) * 2 ^ (den.log2 + 1 : ℤ) := by gcongr
      _ = 2 ^ (num.log2 : ℤ) := by
        rw [← zpow_add₀ two_ne_zero]
        congr 1
        omega
      _ ≤ num := numLow
  · calc
      (num : ℚ) < 2 ^ (num.log2 + 1 : ℤ) := numHigh
      _ = 2 ^ ((num.log2 : ℤ) - den.log2 + 1) * 2 ^ (den.log2 : ℤ) := by
        rw [← zpow_add₀ two_ne_zero]
        congr 1
        omega
      _ ≤ 2 ^ ((num.log2 : ℤ) - den.log2 + 1) * den := by gcongr

/-- A ratio lies between the powers of two that its leading bit stands for. -/
theorem leadingExponent_spec {num den : Nat} (some : 0 < num) (positive : 0 < den)
    : (2 : ℚ) ^ leadingExponent num den ≤ num / den
      ∧ (num / den : ℚ) < 2 ^ (leadingExponent num den + 1) := by
  obtain ⟨low, high⟩ := ratio_bounds some positive
  have estimated := scaled_eq num den ((num.log2 : ℤ) - den.log2)
  have unit := scaled_pos num positive ((num.log2 : ℤ) - den.log2)
  have reached
      : (scaled num den ((num.log2 : ℤ) - den.log2)).2
          ≤ (scaled num den ((num.log2 : ℤ) - den.log2)).1
        ↔ (2 : ℚ) ^ ((num.log2 : ℤ) - den.log2) ≤ num / den := by
    rw [← Nat.cast_le (α := ℚ), ← one_le_div (by exact_mod_cast unit), estimated,
      one_le_div (by positivity)]
  simp only [leadingExponent, reached]
  split
  · next least => exact ⟨least, high⟩
  · next less =>
      rw [sub_add_cancel]
      exact ⟨low, not_le.mp less⟩

/-- A number in units of the last place is rounded to the nearest integer, which has at most one bit
more than a significand.
-/
theorem cell_rounded (regular : format.Regular) {shift rounded : Nat} {scaled : ℚ}
    (less : scaled < 2 ^ (format.fractionBits + 1))
    (normal : shift = 0 ∨ 2 ^ format.fractionBits ≤ scaled)
    (lower : Meets (rounded % 2 = 0) (2 * rounded - 1) (2 * scaled))
    (upper : Meets (rounded % 2 = 0) (2 * scaled) (2 * rounded + 1))
    : format.Cell (shift * 2 ^ format.fractionBits + rounded) (scaled * 2 ^ shift) := by
  have few : rounded < 2 ^ (format.fractionBits + 1) + 1 := by
    have bound := lower.le
    have cast : (rounded : ℚ) < (2 ^ (format.fractionBits + 1) + 1 : Nat) := by
      push_cast
      linarith
    exact_mod_cast cast
  have normal' : shift = 0 ∨ 2 ^ format.fractionBits ≤ rounded := by
    refine normal.imp_right fun least => ?_
    have bound := upper.le
    have cast : ((2 ^ format.fractionBits : Nat) : ℚ) < (rounded + 1 : Nat) := by
      push_cast
      linarith
    exact Nat.le_of_lt_succ (by exact_mod_cast cast)
  have unit : (0 : ℚ) < 2 ^ shift := by positivity
  rcases Nat.lt_succ_iff_lt_or_eq.mp few with short | rfl
  · refine cell_packed regular short normal' (fun _ => ?_) ?_
    · split
      · next narrow =>
          have least := normal.resolve_left narrow.2.ne'
          have quarter : 4 * (rounded : ℚ) - 1 < 4 * scaled := by
            rw [narrow.1]
            push_cast
            linarith
          exact Or.inl (by linarith [mul_lt_mul_of_pos_right quarter unit])
      · have scaled := lower.scale (mul_pos two_pos unit)
        ring_nf at scaled ⊢
        exact scaled
    · have scaled := upper.scale (mul_pos two_pos unit)
      ring_nf at scaled ⊢
      exact scaled
  -- What was rounded up to a power of two is the first significand of the next shift.
  · have carried
        : shift * 2 ^ format.fractionBits + 2 ^ (format.fractionBits + 1)
          = (shift + 1) * 2 ^ format.fractionBits + 2 ^ format.fractionBits := by
      ring
    have even {fractionBits : Nat} (some : 1 ≤ fractionBits) : 2 ^ fractionBits % 2 = 0 := by
      obtain ⟨bits, rfl⟩ := Nat.exists_eq_add_of_le' some
      rw [Nat.pow_succ, Nat.mul_mod_left]
    have parity : 2 ^ (format.fractionBits + 1) % 2 = 2 ^ format.fractionBits % 2 := by
      rw [even (Nat.le_add_left 1 _), even regular.fraction]
    have short : 2 ^ format.fractionBits < 2 ^ (format.fractionBits + 1) :=
      Nat.pow_lt_pow_right (by decide) (Nat.lt_succ_self _)
    rw [carried]
    refine cell_packed regular short (Or.inr le_rfl) (fun _ => ?_) ?_
    · have scaled := lower.scale (mul_pos two_pos unit)
      rw [parity] at scaled
      rw [if_pos ⟨rfl, Nat.succ_pos shift⟩]
      push_cast at scaled ⊢
      ring_nf at scaled ⊢
      exact scaled
    · refine Or.inl ?_
      have scaled := mul_lt_mul_of_pos_right less unit
      push_cast
      rw [pow_succ] at scaled ⊢
      linarith [mul_pos unit unit]

/-- What a ratio other than zero is rounded to, in units of the last place. -/
theorem encodeRatio_of_pos (format : Format) (negative : Bool) {num : Nat} (den : Nat)
    (some : 0 < num)
    : let exponent := max (leadingExponent num den - format.fractionBits) format.leastExponent
      let ratio := scaled num den exponent
      format.encodeRatio negative num den
        = format.withSign negative
            (min
              ((exponent - format.leastExponent).toNat * 2 ^ format.fractionBits
                + roundHalfEven ratio.1 ratio.2)
              format.infinity) := by
  rw [encodeRatio, if_neg some.ne']
  simp only [Nat.shiftLeft_eq]

/-- A ratio is rounded to the nearest number. -/
theorem encodeRatio_nearest (regular : format.Regular) (num : Nat) {den : Nat}
    (positive : 0 < den)
    : format.Nearest (num / den) (format.encodeRatio false num den) := by
  rcases Nat.eq_zero_or_pos num with rfl | some
  · have none : (format.magnitude 0).value = 0 := by
      rw [value_of_le (Nat.zero_le _), units_zero, Nat.cast_zero, zero_mul]
    rw [encodeRatio, if_pos rfl, Nat.cast_zero, zero_div, ← none]
    exact nearest_value (Nat.zero_le _)
  · obtain ⟨least, less⟩ := leadingExponent_spec some positive
    rw [encodeRatio_of_pos format false den some]
    generalize same
      : max (leadingExponent num den - format.fractionBits) format.leastExponent = exponent
    have power : (0 : ℚ) < 2 ^ exponent := by positivity
    have above : 0 ≤ exponent - format.leastExponent := by omega
    obtain ⟨shift, moved⟩ := Int.eq_ofNat_of_zero_le above
    rw [moved, Int.toNat_natCast]
    have few : (num / den / 2 ^ exponent : ℚ) < 2 ^ (format.fractionBits + 1) := by
      rw [div_lt_iff₀ power, ← zpow_natCast, ← zpow_add₀ two_ne_zero]
      refine less.trans_le (zpow_le_zpow_right₀ one_le_two ?_)
      push_cast
      omega
    have normal : shift = 0 ∨ 2 ^ format.fractionBits ≤ (num / den / 2 ^ exponent : ℚ) := by
      rcases Nat.eq_zero_or_pos shift with none | some
      · exact Or.inl none
      · right
        rw [le_div_iff₀ power, ← zpow_natCast, ← zpow_add₀ two_ne_zero]
        refine le_trans (zpow_le_zpow_right₀ one_le_two ?_) least
        omega
    have meets := roundHalfEven_meets (scaled num den exponent).1 (scaled_pos num positive exponent)
    rw [scaled_eq] at meets
    have nearest := (cell_rounded regular few normal meets.1 meets.2).nearest
    have whole
        : (num / den / 2 ^ exponent * 2 ^ shift * 2 ^ format.leastExponent : ℚ) = num / den := by
      rw [mul_assoc, ← zpow_natCast, ← zpow_add₀ two_ne_zero, ← moved, sub_add_cancel,
        div_mul_cancel₀ _ power.ne']
    rwa [whole] at nearest

-----------------------------------------------------------------------------------------
-- Rounding of numbers
-----------------------------------------------------------------------------------------

/-- The pattern of the number nearest to a number that is not negative. -/
def round (format : Format) (number : ℚ) : Nat :=
  format.encodeRatio false number.num.toNat number.den

theorem round_nearest (regular : format.Regular) (least : 0 ≤ number)
    : format.Nearest number (format.round number) := by
  have nearest := encodeRatio_nearest regular number.num.toNat number.den_pos
  have num : ((number.num.toNat : ℕ) : ℚ) = number.num := by
    exact_mod_cast Int.toNat_of_nonneg (Rat.num_nonneg.mpr least)
  rwa [num, Rat.num_div_den] at nearest

theorem Nearest.round_eq (nearest : format.Nearest number bits) (regular : format.Regular)
    (least : 0 ≤ number)
    : format.round number = bits :=
  (round_nearest regular least).unique nearest

/-- Rounding gives back what a pattern stands for. -/
theorem round_value (regular : format.Regular) (within : bits ≤ format.infinity)
    : format.round (format.magnitude bits).value = bits :=
  (nearest_value within).round_eq regular (Magnitude.value_nonneg _)

/-- The product of two finite patterns, rounded once. -/
def product (format : Format) (left right : Nat) : Nat :=
  format.withSign (format.isNegative left != format.isNegative right)
    (format.round ((format.magnitude left).value * (format.magnitude right).value))

/-- A ratio with a sign is its magnitude rounded, with that sign. -/
theorem encodeRatio_eq (regular : format.Regular) (negative : Bool) (num : Nat) {den : Nat}
    (positive : 0 < den)
    : format.encodeRatio negative num den
      = format.withSign negative (format.round (num / den)) := by
  rw [(encodeRatio_nearest regular num positive).round_eq regular (by positivity)]
  rcases Nat.eq_zero_or_pos num with rfl | some
  · rfl
  · rw [encodeRatio_of_pos format negative den some, encodeRatio_of_pos format false den some]
    rfl

/-- The magnitude of an integral pattern is its whole part. -/
theorem value_eq_wholePart (integral : format.isIntegral bits = true)
    : (format.magnitude bits).value = format.wholePart bits := by
  rw [isIntegral, beq_iff_eq, Nat.one_shiftLeft] at integral
  simp only [Magnitude.value_eq_div, wholePart, Nat.shiftRight_eq_div_pow, Nat.one_shiftLeft]
  rw [Nat.cast_div]
  · rw [Nat.shiftLeft_eq]
    exact (Nat.dvd_of_mod_eq_zero integral).mul_right _
  · positivity

/-- A finite pattern is read in another format as the nearest number, with its sign. -/
theorem convert_finite {source target : Format} (regular : target.Regular)
    (finite : source.unsigned bits < source.infinity)
    : source.convert target bits
      = target.withSign (source.isNegative bits)
          (target.round (source.magnitude bits).value) := by
  have number : source.isNaN bits = false := by
    rw [isNaN, decide_eq_false_iff_not]
    exact Nat.not_lt_of_lt finite
  have bounded : source.isInfinite bits = false := by
    rw [isInfinite, beq_eq_false_iff_ne]
    exact finite.ne
  have positive : 0 < 1 <<< (-(source.magnitude bits).exponent).toNat := by
    rw [Nat.one_shiftLeft]
    exact Nat.two_pow_pos _
  rw [convert, number, bounded, if_neg Bool.false_ne_true, if_neg Bool.false_ne_true,
    Magnitude.value_eq_div]
  exact encodeRatio_eq regular _ _ positive

end Format

end LazyTensor.Float
