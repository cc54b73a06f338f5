import Mathlib.Data.Rat.Floor
import LazyTensor.Random.Counter
import LazyTensor.Proofs.Float.Conversion
import LazyTensor.Proofs.Float.Exact

/-! Uniform draws are exact. A draw keeps as many leading bits of a word as a significand has, so
that their number is one of the element type, and so is every power of two that they are scaled
with. No step rounds: the draw is the kept bits over a power of two, below one, and the narrow draw
is the wide one cut to fewer places.
-/

namespace LazyTensor.Random

open Float.Format

/-- The leading bits of a word that a draw keeps. -/
def kept (dtype : DType) (seed index : UInt64) : Nat :=
  (word seed index).toNat / 2 ^ (64 - dtype.format.precision)

/-- The kept bits as a number of the element type. -/
def conversion (dtype : DType) (seed index : UInt64) : Nat :=
  dtype.format.round (kept dtype seed index)

/-- The distance of neighbouring draws: one over a power of two, which is first converted itself. -/
def scale (dtype : DType) : Nat :=
  dtype.format.round (1 / dtype.format.number (dtype.format.round (2 ^ dtype.format.precision)))

/-- A draw is the product of the converted bits and the scale, and no step of it rounds. -/
structure Unrounded (dtype : DType) (seed index : UInt64) : Prop where
  conversion : dtype.format.number (conversion dtype seed index) = kept dtype seed index
  scale : dtype.format.number (scale dtype) = 1 / 2 ^ dtype.format.precision
  product : (uniform dtype seed index).toNat
    = dtype.format.product (Random.conversion dtype seed index) (Random.scale dtype)
  exact : dtype.format.number (uniform dtype seed index).toNat
    = dtype.format.number (Random.conversion dtype seed index)
      * dtype.format.number (Random.scale dtype)

theorem kept_lt (dtype : DType) (seed index : UInt64)
    : kept dtype seed index < 2 ^ dtype.format.precision := by
  have bounded := (word seed index).toNat_lt
  rw [kept, Nat.div_lt_iff_lt_mul (Nat.two_pow_pos _), ← Nat.pow_add]
  cases dtype with
  | float32 => exact bounded
  | float64 => exact bounded

/-- The kept bits are the word shifted down. -/
theorem toNat_shiftRight_word (dtype : DType) (seed index : UInt64)
    : (word seed index >>> .ofNat (64 - dtype.format.precision)).toNat = kept dtype seed index := by
  have drop
      : (UInt64.ofNat (64 - dtype.format.precision)).toNat % 64 = 64 - dtype.format.precision := by
    cases dtype with
    | float32 => decide
    | float64 => decide
  rw [UInt64.toNat_shiftRight, Nat.shiftRight_eq_div_pow, kept, drop]

/-- The pattern of a draw is made from the kept bits. -/
theorem toNat_uniform (dtype : DType) (seed index : UInt64)
    : (uniform dtype seed index).toNat
      = dtype.format.encodeFraction (kept dtype seed index) := by
  have finite := (encodeFraction_spec dtype.format_regular (kept_lt dtype seed index)).1
  rw [← toNat_shiftRight_word] at finite ⊢
  cases dtype with
  | float32 =>
      rw [uniform, UInt64.toNat_ofNat']
      exact Nat.mod_eq_of_lt (finite.trans (by decide))
  | float64 =>
      rw [uniform, UInt64.toNat_ofNat']
      exact Nat.mod_eq_of_lt (finite.trans (by decide))

-----------------------------------------------------------------------------------------
-- Numbers of the element types
-----------------------------------------------------------------------------------------

section Numbers

variable {dtype : DType} {number : ℚ}

/-- A finite pattern without a sign stands for its magnitude. -/
theorem number_of_finite {bits : Nat} (finite : bits < dtype.format.infinity)
    : dtype.format.number bits = (dtype.format.magnitude bits).value :=
  dtype.format.number_of_lt (finite.trans dtype.format.infinity_lt)

/-- Integers with no more bits than a significand are not rounded. -/
theorem round_kept {bits : Nat} (few : bits < 2 ^ dtype.format.precision)
    : dtype.format.round bits < dtype.format.infinity
      ∧ (dtype.format.magnitude (dtype.format.round bits)).value = bits := by
  cases dtype with
  | float32 =>
      have unit : DType.float32.format.leastExponent + (149 : ℕ) = 0 := by decide
      exact round_significand binary32_regular bits 149 few (by decide) (by rw [unit]; simp)
  | float64 =>
      have unit : DType.float64.format.leastExponent + (1074 : ℕ) = 0 := by decide
      exact round_significand binary64_regular bits 1074 few (by decide) (by rw [unit]; simp)

/-- The power of two that draws are scaled with is not rounded. -/
theorem round_power (dtype : DType)
    : dtype.format.round (2 ^ dtype.format.precision) < dtype.format.infinity
      ∧ (dtype.format.magnitude (dtype.format.round (2 ^ dtype.format.precision))).value
        = 2 ^ dtype.format.precision := by
  cases dtype with
  | float32 =>
      have unit : DType.float32.format.leastExponent + (173 : ℕ) = (24 : ℕ) := by decide
      refine round_significand binary32_regular 1 173 (by decide) (by decide) ?_
      rw [unit, zpow_natCast, Nat.cast_one, one_mul]
      rfl
  | float64 =>
      have unit : DType.float64.format.leastExponent + (1127 : ℕ) = (53 : ℕ) := by decide
      refine round_significand binary64_regular 1 1127 (by decide) (by decide) ?_
      rw [unit, zpow_natCast, Nat.cast_one, one_mul]
      rfl

/-- Neither is one over it. -/
theorem round_inverse (dtype : DType)
    : dtype.format.round (1 / 2 ^ dtype.format.precision) < dtype.format.infinity
      ∧ (dtype.format.magnitude (dtype.format.round (1 / 2 ^ dtype.format.precision))).value
        = 1 / 2 ^ dtype.format.precision := by
  cases dtype with
  | float32 =>
      have unit : DType.float32.format.leastExponent + (125 : ℕ) = -(24 : ℕ) := by decide
      refine round_significand binary32_regular 1 125 (by decide) (by decide) ?_
      rw [unit, zpow_neg, zpow_natCast, Nat.cast_one, one_mul, one_div]
      rfl
  | float64 =>
      have unit : DType.float64.format.leastExponent + (1021 : ℕ) = -(53 : ℕ) := by decide
      refine round_significand binary64_regular 1 1021 (by decide) (by decide) ?_
      rw [unit, zpow_neg, zpow_natCast, Nat.cast_one, one_mul, one_div]
      rfl

end Numbers

-----------------------------------------------------------------------------------------
-- Draws
-----------------------------------------------------------------------------------------

theorem scale_eq (dtype : DType)
    : scale dtype = dtype.format.round (1 / 2 ^ dtype.format.precision) := by
  obtain ⟨finite, exact⟩ := round_power dtype
  rw [scale, number_of_finite finite, exact]

/-- A draw is the kept bits over a power of two. -/
theorem number_uniform (dtype : DType) (seed index : UInt64)
    : dtype.format.number (uniform dtype seed index).toNat
      = kept dtype seed index / 2 ^ dtype.format.precision := by
  obtain ⟨finite, exact⟩ := encodeFraction_spec dtype.format_regular (kept_lt dtype seed index)
  rw [toNat_uniform, number_of_finite finite, exact]

/-- No step of a draw rounds. -/
theorem unrounded_uniform (dtype : DType) (seed index : UInt64) : Unrounded dtype seed index := by
  obtain ⟨finite, whole⟩ := round_kept (kept_lt dtype seed index)
  obtain ⟨bounded, inverse⟩ := round_inverse dtype
  have conversion := (number_of_finite finite).trans whole
  have scale : dtype.format.number (scale dtype) = 1 / 2 ^ dtype.format.precision := by
    rw [scale_eq, number_of_finite bounded, inverse]
  refine ⟨conversion, scale, ?_, ?_⟩
  · have positive {bits : Nat} (finite : bits < dtype.format.infinity)
        : dtype.format.isNegative bits = false :=
      dtype.format.isNegative_withSign false (finite.trans dtype.format.infinity_lt)
    obtain ⟨within, exact⟩ := encodeFraction_spec dtype.format_regular (kept_lt dtype seed index)
    rw [toNat_uniform, product, Random.conversion, scale_eq, positive finite, positive bounded,
      whole, inverse, mul_one_div, ← exact, round_value dtype.format_regular within.le,
      bne_self_eq_false, withSign, if_neg Bool.false_ne_true]
  · rw [number_uniform, scale, Random.conversion, conversion, mul_one_div]

/-- Draws are at least zero and below one. -/
theorem uniform_mem (dtype : DType) (seed index : UInt64)
    : 0 ≤ dtype.format.number (uniform dtype seed index).toNat
      ∧ dtype.format.number (uniform dtype seed index).toNat < 1 := by
  have few : (kept dtype seed index : ℚ) < 2 ^ dtype.format.precision := by
    exact_mod_cast kept_lt dtype seed index
  rw [number_uniform, div_lt_one (by positivity)]
  exact ⟨by positivity, few⟩

/-- The narrow draw is the wide one without the places that it has no room for. -/
theorem uniform_truncated (seed index : UInt64)
    : DType.float32.format.number (uniform .float32 seed index).toNat
      = ⌊DType.float64.format.number (uniform .float64 seed index).toNat * 2 ^ 24⌋ / 2 ^ 24 := by
  have wide : DType.float64.format.precision = 53 := by decide
  have narrow : DType.float32.format.precision = 24 := by decide
  have fewer : kept .float64 seed index / 2 ^ 29 = kept .float32 seed index := by
    rw [kept, kept, wide, narrow, Nat.div_div_eq_div_mul]
    norm_num
  have cut
      : ((kept .float64 seed index : ℚ) / 2 ^ 53 * 2 ^ 24)
        = (kept .float64 seed index : ℕ) / (2 ^ 29 : ℕ) := by
    push_cast
    ring
  have places
      : ⌊(kept .float64 seed index : ℚ) / 2 ^ 53 * 2 ^ 24⌋ = (kept .float32 seed index : ℤ) := by
    rw [cut, Rat.floor_natCast_div_natCast, ← fewer]
    rfl
  rw [number_uniform, number_uniform, wide, narrow, places, Int.cast_natCast]

end LazyTensor.Random
