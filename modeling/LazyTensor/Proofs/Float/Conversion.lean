import LazyTensor.Element
import LazyTensor.Proofs.Float.Rounding

/-! Wide numbers as elements. A number that is converted to an element type keeps its sign, and
becomes the nearest one of the type: infinity if it is too large and a zero if it is too small. What
is no number stays so.
-/

namespace LazyTensor

namespace Float.Format

variable {source target format : Format} {bits pattern : Nat}

/-- A pattern of one format stands for the number of another, rounded once. -/
structure Converts (source target : Format) (bits pattern : Nat) : Prop where
  nan : source.isNaN bits = true → target.isNaN pattern = true
  sign : source.isNaN bits = false → target.isNegative pattern = source.isNegative bits
  infinite : source.isInfinite bits = true → target.unsigned pattern = target.infinity
  finite : source.unsigned bits < source.infinity →
      target.Nearest (source.magnitude bits).value (target.unsigned pattern)

theorem isNaN_iff : format.isNaN bits = true ↔ format.infinity < format.unsigned bits := by
  rw [isNaN, decide_eq_true_eq]

theorem isInfinite_iff
    : format.isInfinite bits = true ↔ format.unsigned bits = format.infinity := by
  rw [isInfinite, beq_iff_eq]

theorem nan_lt (regular : format.Regular) : format.nan < 2 ^ format.signPosition := by
  have half : 2 ^ (format.fractionBits - 1) < 2 ^ format.fractionBits :=
    Nat.pow_lt_pow_right (by decide) (Nat.sub_lt regular.fraction (by decide))
  have field := Nat.two_pow_pos format.exponentBits
  rw [nan, infinity_eq, Nat.one_shiftLeft, signPosition, Nat.add_comm format.fractionBits,
    Nat.pow_add, Nat.sub_mul, Nat.one_mul]
  have whole := Nat.mul_le_mul_right (2 ^ format.fractionBits) field
  omega

theorem isNaN_nan (regular : format.Regular) : format.isNaN format.nan = true := by
  rw [isNaN_iff, format.unsigned_of_lt (nan_lt regular), nan, Nat.one_shiftLeft]
  exact Nat.lt_add_of_pos_right (Nat.two_pow_pos _)

theorem not_isNaN_iff : format.isNaN bits = false ↔ format.unsigned bits ≤ format.infinity := by
  rw [isNaN, decide_eq_false_iff_not, Nat.not_lt]

/-- What is no number is converted to anything that is none. -/
theorem converts_of_isNaN (nan : source.isNaN bits = true) (same : target.isNaN pattern = true)
    : source.Converts target bits pattern := by
  have beyond := isNaN_iff.mp nan
  refine ⟨fun _ => same, fun number => ?_, fun infinite => ?_, fun finite => ?_⟩
  · exact absurd (not_isNaN_iff.mp number) beyond.not_ge
  · exact absurd (isInfinite_iff.mp infinite) beyond.ne'
  · exact absurd finite beyond.not_gt

/-- Only what is no number is converted to something that is none. -/
theorem Converts.isNaN_eq (converts : source.Converts target bits pattern)
    : target.isNaN pattern = source.isNaN bits := by
  cases number : source.isNaN bits with
  | true => exact converts.nan number
  | false =>
      rw [not_isNaN_iff]
      rcases Nat.lt_or_eq_of_le (not_isNaN_iff.mp number) with finite | infinite
      · exact (converts.finite finite).within
      · exact (converts.infinite (isInfinite_iff.mpr infinite)).le

theorem convert_of_isNaN (nan : source.isNaN bits = true)
    : source.convert target bits = target.nan := by
  rw [convert, if_pos nan]

/-- A number is converted to an unsigned pattern with its sign. -/
theorem convert_of_number (regular : target.Regular) (number : source.isNaN bits = false)
    : ∃ pattern ≤ target.infinity,
        source.convert target bits = target.withSign (source.isNegative bits) pattern
        ∧ (source.isInfinite bits = true → pattern = target.infinity)
        ∧ (source.unsigned bits < source.infinity →
          target.Nearest (source.magnitude bits).value pattern) := by
  rcases Nat.lt_or_eq_of_le (not_isNaN_iff.mp number) with finite | infinite
  · have nearest := round_nearest regular (source.magnitude bits).value_nonneg
    refine ⟨_, nearest.within, convert_finite regular finite, fun infinite => ?_, fun _ => nearest⟩
    exact absurd (isInfinite_iff.mp infinite) finite.ne
  · refine ⟨_, le_rfl, ?_, fun _ => rfl, fun finite => absurd infinite finite.ne⟩
    rw [convert, number, if_neg Bool.false_ne_true, if_pos (isInfinite_iff.mpr infinite)]

/-- The conversion rounds once. -/
theorem converts_convert (regular : target.Regular) (bits : Nat)
    : source.Converts target bits (source.convert target bits) := by
  cases number : source.isNaN bits with
  | true =>
      rw [convert_of_isNaN number]
      exact converts_of_isNaN number (isNaN_nan regular)
  | false =>
      obtain ⟨pattern, within, same, infinite, finite⟩ := convert_of_number regular number
      have few := within.trans_lt target.infinity_lt
      rw [same]
      refine ⟨fun nan => ?_, fun _ => target.isNegative_withSign _ few, ?_, ?_⟩
      · exact absurd (number.symm.trans nan) Bool.false_ne_true
      · rwa [target.unsigned_withSign _ few]
      · rwa [target.unsigned_withSign _ few]

/-- A conversion takes no more bits than a pattern has. -/
theorem convert_lt (regular : target.Regular) (bits : Nat)
    : source.convert target bits < 2 ^ (target.signPosition + 1) := by
  cases number : source.isNaN bits with
  | true =>
      rw [convert_of_isNaN number]
      exact (nan_lt regular).trans (Nat.pow_lt_pow_right (by decide) (Nat.lt_succ_self _))
  | false =>
      obtain ⟨pattern, within, same, -⟩ := convert_of_number regular number
      have few := within.trans_lt target.infinity_lt
      rw [same, withSign, Nat.one_shiftLeft, Nat.pow_succ]
      split
      all_goals omega

/-- In its own format a number is converted to itself. -/
theorem converts_self (bits : Nat) : format.Converts format bits bits := by
  refine ⟨id, fun _ => rfl, isInfinite_iff.mp, fun finite => ?_⟩
  rw [← magnitude_unsigned]
  exact nearest_value finite.le

end Float.Format

namespace DType

open Float.Format

theorem format_regular (dtype : DType) : dtype.format.Regular := by
  cases dtype with
  | float32 => exact binary32_regular
  | float64 => exact binary64_regular

/-- The bits of a narrow number all fit into an element. -/
theorem toNat_ofBinary64_float32 (bits : UInt64)
    : (float32.ofBinary64 bits).toNat = binary64.convert .binary32 bits.toNat := by
  have few : binary64.convert .binary32 bits.toNat < 2 ^ 32 := convert_lt binary32_regular _
  exact Nat.mod_eq_of_lt (few.trans (by decide))

/-- An element has as many bits as its type. -/
theorem ofBinary64_lt (dtype : DType) (bits : UInt64)
    : (dtype.ofBinary64 bits).toNat < 2 ^ (dtype.format.signPosition + 1) := by
  cases dtype with
  | float32 =>
      rw [toNat_ofBinary64_float32]
      exact convert_lt binary32_regular _
  | float64 => exact UInt64.toNat_lt _

/-- The conversion of a wide number to an element type is a rounding. -/
theorem converts_ofBinary64 (dtype : DType) (bits : UInt64)
    : binary64.Converts dtype.format bits.toNat (dtype.ofBinary64 bits).toNat := by
  cases dtype with
  | float32 =>
      rw [toNat_ofBinary64_float32]
      exact converts_convert binary32_regular _
  | float64 =>
      rw [ofBinary64]
      split
      · next nan => exact converts_of_isNaN nan (by decide)
      · exact converts_self _

end DType

end LazyTensor
