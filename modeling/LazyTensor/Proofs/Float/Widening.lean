import LazyTensor.Proofs.Float.Conversion
import LazyTensor.Proofs.Float.Exact

/-! Narrow numbers in the wide format. The wide format has all numbers of the narrow one, so a narrow
number that is made wide and then narrow again is the same one.
-/

namespace LazyTensor

namespace Float.Format

variable {bits : Nat}

/-- A finite narrow number is not rounded to the wide format. -/
theorem round_widened (finite : binary32.unsigned bits < binary32.infinity)
    : binary64.round (binary32.magnitude bits).value < binary64.infinity
      ∧ (binary64.magnitude (binary64.round (binary32.magnitude bits).value)).value
        = (binary32.magnitude bits).value := by
  obtain ⟨shift, significand, packed, few, normal⟩ := binary32.exists_packed (binary32.unsigned bits)
  have below : shift < 255 := by
    have infinity : binary32.infinity = 255 * 2 ^ 23 := by decide
    have fraction : binary32.fractionBits = 23 := rfl
    rw [packed, infinity, fraction] at finite
    omega
  have same
      : (binary32.magnitude bits).value
        = significand * 2 ^ (binary64.leastExponent + (925 + shift : ℕ)) := by
    have exponent
        : binary64.leastExponent + (925 + shift : ℕ) = shift + binary32.leastExponent := by
      have least : binary64.leastExponent + 925 = binary32.leastExponent := by decide
      omega
    rw [value_magnitude, packed, binary32.units_packed few.le normal, exponent,
      zpow_add₀ two_ne_zero, zpow_natCast, ← mul_assoc]
    push_cast
    rfl
  refine round_significand binary64_regular significand (925 + shift) (few.trans (by decide)) ?_ same
  have field : 2 ^ binary64.exponentBits = 2048 := by decide
  omega

/-- A narrow number that is made wide becomes the same narrow number again. -/
theorem convert_widened (few : bits < 2 ^ 32) (number : binary32.isNaN bits = false)
    : binary64.convert .binary32 (binary32.convert .binary64 bits) = bits := by
  have back : binary32.withSign (binary32.isNegative bits) (binary32.unsigned bits) = bits :=
    binary32.withSign_unsigned few
  rcases Nat.lt_or_eq_of_le (not_isNaN_iff.mp number) with finite | infinite
  · obtain ⟨bounded, exact⟩ := round_widened finite
    have most := bounded.trans binary64.infinity_lt
    have wide : binary64.unsigned (binary32.convert .binary64 bits) < binary64.infinity := by
      rw [convert_finite binary64_regular finite, binary64.unsigned_withSign _ most]
      exact bounded
    rw [convert_finite binary32_regular wide, ← magnitude_unsigned,
      convert_finite binary64_regular finite, binary64.isNegative_withSign _ most,
      binary64.unsigned_withSign _ most, exact, ← magnitude_unsigned,
      round_value binary32_regular finite.le]
    exact back
  · have wide
        : binary32.convert .binary64 bits
          = binary64.withSign (binary32.isNegative bits) binary64.infinity := by
      rw [convert, number, if_neg Bool.false_ne_true, if_pos (isInfinite_iff.mpr infinite)]
    have unsigned := binary64.unsigned_withSign (binary32.isNegative bits) binary64.infinity_lt
    have other : binary64.isNaN (binary32.convert .binary64 bits) = false := by
      rw [not_isNaN_iff, wide, unsigned]
    rw [convert, other, if_neg Bool.false_ne_true, wide, if_pos (isInfinite_iff.mpr unsigned),
      binary64.isNegative_withSign _ binary64.infinity_lt, ← infinite]
    exact back

end Float.Format

namespace DType

open Float.Format

/-- An element in the wide format is rounded to itself. -/
theorem ofBinary64_toBinary64 (dtype : DType) {bits : Nat}
    (few : bits < 2 ^ (dtype.format.signPosition + 1))
    (kept : dtype.format.isNaN bits = true → bits = dtype.format.nan)
    : dtype.ofBinary64 (dtype.toBinary64 bits) = .ofNat bits := by
  cases dtype with
  | float32 =>
      have wide : (float32.toBinary64 bits).toNat = binary32.convert .binary64 bits :=
        Nat.mod_eq_of_lt (convert_lt binary64_regular bits)
      rw [ofBinary64, wide]
      cases number : binary32.isNaN bits with
      | true =>
          obtain rfl := kept number
          decide
      | false => rw [convert_widened few number]
  | float64 =>
      have same : (float64.toBinary64 bits).toNat = bits := Nat.mod_eq_of_lt few
      rw [ofBinary64, same]
      split
      · next nan =>
          obtain rfl := kept nan
          rfl
      · rfl

end DType

end LazyTensor
