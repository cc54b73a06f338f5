import LazyTensor.Proofs.Float.Rounding

/-! Numbers that are not rounded. A number with no more bits than a significand, and with its last
one in the range of the format, is the number of some pattern, so rounding leaves it as it is.
-/

namespace LazyTensor.Float.Format

variable {format : Format} {number : ℚ}

/-- A significand at a shift in the range of the format makes a finite pattern. -/
theorem packed_lt_infinity {shift significand : Nat}
    (few : significand < 2 ^ (format.fractionBits + 1))
    (finite : shift + 2 < 2 ^ format.exponentBits)
    : shift * 2 ^ format.fractionBits + significand < format.infinity := by
  rw [infinity_eq]
  calc
    shift * 2 ^ format.fractionBits + significand
        < (shift + 2) * 2 ^ format.fractionBits := by
      rw [Nat.pow_succ] at few
      rw [Nat.add_mul]
      omega
    _ ≤ (2 ^ format.exponentBits - 1) * 2 ^ format.fractionBits :=
      Nat.mul_le_mul_right _ (by omega)

/-- A significand at a shift is a number of units of some pattern, also if it has no leading bit. By
induction on the shift: without a leading bit, it is twice as much at one shift less.
-/
theorem exists_units (format : Format) (shift : Nat) {significand : Nat}
    (few : significand < 2 ^ (format.fractionBits + 1))
    : ∃ bits ≤ shift * 2 ^ format.fractionBits + significand,
        format.units bits = significand * 2 ^ shift := by
  induction shift generalizing significand with
  | zero => exact ⟨_, le_rfl, format.units_packed few.le (Or.inl rfl)⟩
  | succ shift ih =>
      rcases Nat.lt_or_ge significand (2 ^ format.fractionBits) with small | large
      · have double : 2 * significand < 2 ^ (format.fractionBits + 1) := by
          rw [Nat.pow_succ]
          omega
        obtain ⟨bits, within, same⟩ := ih double
        have wider
            : shift * 2 ^ format.fractionBits + 2 * significand
              ≤ (shift + 1) * 2 ^ format.fractionBits + significand := by
          rw [Nat.succ_mul shift]
          omega
        refine ⟨bits, within.trans wider, ?_⟩
        rw [same, Nat.pow_succ]
        ring
      · exact ⟨_, le_rfl, format.units_packed few.le (Or.inr large)⟩

/-- A significand at an exponent in the range of the format is not rounded. -/
theorem round_significand (regular : format.Regular) (significand shift : Nat)
    (few : significand < 2 ^ (format.fractionBits + 1))
    (finite : shift + 2 < 2 ^ format.exponentBits)
    (same : number = significand * 2 ^ (format.leastExponent + shift))
    : format.round number < format.infinity
      ∧ (format.magnitude (format.round number)).value = number := by
  obtain ⟨bits, within, units⟩ := format.exists_units shift few
  have bounded := within.trans_lt (packed_lt_infinity few finite)
  have value : (format.magnitude bits).value = number := by
    rw [value_of_le bounded.le, units, same, zpow_add₀ two_ne_zero, zpow_natCast]
    push_cast
    ring
  rw [← value, round_value regular bounded.le]
  exact ⟨bounded, rfl⟩

theorem Regular.precision_eq (regular : format.Regular)
    : format.precision = format.fractionBits + 1 := by
  have some := regular.fraction
  rw [fractionBits] at some ⊢
  omega

theorem Regular.field_pos (regular : format.Regular) : 0 < 2 ^ format.exponentBits - 1 := by
  have wider := Nat.pow_le_pow_right (n := 2) (by decide) (Nat.sub_le format.exponentBits 1)
  have range := regular.range
  omega

/-- Bits behind a binary point, as many as a significand has, are packed without rounding. -/
theorem encodeFraction_spec (regular : format.Regular) {num : Nat}
    (few : num < 2 ^ format.precision)
    : format.encodeFraction num < format.infinity
      ∧ (format.magnitude (format.encodeFraction num)).value = num / 2 ^ format.precision := by
  rw [regular.precision_eq] at few ⊢
  rw [encodeFraction]
  split
  · next none =>
      subst none
      have positive : 0 < format.infinity := by
        rw [infinity_eq]
        exact Nat.mul_pos regular.field_pos (Nat.two_pow_pos _)
      refine ⟨positive, ?_⟩
      rw [value_of_le positive.le, units_zero, Nat.cast_zero, zero_mul, zero_div]
  · next some =>
      have places : num.log2 ≤ format.fractionBits :=
        Nat.le_of_lt_succ ((Nat.log2_lt some).mpr few)
      obtain ⟨lift, lifted⟩ := Nat.exists_eq_add_of_le places
      have range := regular.range
      obtain ⟨shift, moved⟩
          := Nat.exists_eq_add_of_le (show lift + 3 ≤ 2 ^ (format.exponentBits - 1) by omega)
      have least : 2 ^ format.fractionBits ≤ num * 2 ^ lift := by
        rw [lifted, Nat.pow_add]
        exact Nat.mul_le_mul_right _ (Nat.log2_self_le some)
      have most : num * 2 ^ lift < 2 ^ (format.fractionBits + 1) := by
        rw [lifted, Nat.add_right_comm, Nat.pow_add]
        exact Nat.mul_lt_mul_of_pos_right Nat.lt_log2_self (Nat.two_pow_pos _)
      have finite : shift + 2 < 2 ^ format.exponentBits := by
        have wider := Nat.pow_le_pow_right (n := 2) (by decide) (Nat.sub_le format.exponentBits 1)
        omega
      have packed
          : (1 <<< (format.exponentBits - 1) - 3 - (format.fractionBits - num.log2))
              * 1 <<< format.fractionBits
              + num <<< (format.fractionBits - num.log2)
            = shift * 2 ^ format.fractionBits + num * 2 ^ lift := by
        have lift' : format.fractionBits - num.log2 = lift := by omega
        have shift' : 2 ^ (format.exponentBits - 1) - 3 - lift = shift := by omega
        rw [lift', Nat.one_shiftLeft, Nat.one_shiftLeft, Nat.shiftLeft_eq, shift']
      have bounded := packed_lt_infinity most finite
      simp only [packed]
      refine ⟨bounded, ?_⟩
      have exponent
          : format.leastExponent = -(lift + shift + (format.fractionBits + 1) : ℕ) := by
        rw [leastExponent, Nat.one_shiftLeft, moved]
        push_cast
        ring
      rw [value_of_le bounded.le, format.units_packed most.le (Or.inr least), exponent, zpow_neg,
        zpow_natCast, pow_add, pow_add]
      push_cast
      field_simp

end LazyTensor.Float.Format
