import LazyTensor.Float.Decimal
import LazyTensor.Proofs.Float.Rounding

/-! Decimals that read back. Whatever decimal the search for a short one ends with, it lies in the
interval of the numbers that round to the one that is written, which is the cell of its pattern. So
the decimal that is written is rounded to the pattern again.
-/

namespace LazyTensor.Float

/-- The number that a decimal stands for. -/
def Decimal.value (decimal : Decimal) : ℚ := decimal.digits * 10 ^ decimal.exponent

theorem Decimal.value_nonneg (decimal : Decimal) : 0 ≤ decimal.value := by
  rw [Decimal.value]
  positivity

-----------------------------------------------------------------------------------------
-- Intervals
-----------------------------------------------------------------------------------------

namespace Interval

variable {interval : Interval}

/-- The length that ends are counted in. -/
def step (interval : Interval) : ℚ := interval.unit.1 / interval.unit.2

/-- An interval around its value, in units with a power of two below the line. -/
structure Proper (interval : Interval) : Prop where
  below : interval.lower < interval.value
  above : interval.value < interval.upper
  num : 0 < interval.unit.1
  den : ∃ places, interval.unit.2 = 2 ^ places

/-- A number lies in an interval. -/
structure Holds (interval : Interval) (number : ℚ) : Prop where
  lower : Meets interval.closed (interval.lower * interval.step) number
  upper : Meets interval.closed number (interval.upper * interval.step)

theorem Proper.den_pos (proper : interval.Proper) : 0 < interval.unit.2 := by
  obtain ⟨places, same⟩ := proper.den
  rw [same]
  exact Nat.two_pow_pos _

theorem Proper.step_pos (proper : interval.Proper) : 0 < interval.step := by
  have num : (0 : ℚ) < interval.unit.1 := by exact_mod_cast proper.num
  have den : (0 : ℚ) < interval.unit.2 := by exact_mod_cast proper.den_pos
  exact div_pos num den

theorem meets_of_reaches {left right : Nat} (reached : interval.reaches left right = true)
    : Meets interval.closed left right := by
  rw [reaches, Bool.or_eq_true, decide_eq_true_eq, Bool.and_eq_true, beq_iff_eq] at reached
  rcases reached with below | ⟨closed, same⟩
  · exact Or.inl (by exact_mod_cast below)
  · exact Or.inr ⟨by exact_mod_cast same, closed⟩

/-- The value lies in its interval. -/
theorem Proper.holds_value (proper : interval.Proper)
    : interval.Holds (interval.value * interval.step) := by
  have below : (interval.lower : ℚ) < interval.value := by exact_mod_cast proper.below
  have above : (interval.value : ℚ) < interval.upper := by exact_mod_cast proper.above
  exact ⟨Or.inl (mul_lt_mul_of_pos_right below proper.step_pos),
    Or.inl (mul_lt_mul_of_pos_right above proper.step_pos)⟩

/-- Ends of the interval and points of a grid are multiples of one length. -/
theorem Proper.holds_of_reaches (proper : interval.Proper) {exponent : ℤ} {digits : Nat}
    (lower : interval.reaches (interval.lower * (Nat.pow 10 (-exponent).toNat * interval.unit.1))
      (digits * (Nat.pow 10 exponent.toNat * interval.unit.2)))
    (upper : interval.reaches (digits * (Nat.pow 10 exponent.toNat * interval.unit.2))
      (interval.upper * (Nat.pow 10 (-exponent).toNat * interval.unit.1)))
    : interval.Holds (digits * 10 ^ exponent) := by
  have unit : (0 : ℚ) < interval.unit.2 := by exact_mod_cast proper.den_pos
  have length : (0 : ℚ) < 1 / (10 ^ (-exponent).toNat * interval.unit.2) := by positivity
  have ends (count : Nat)
      : ((count * (Nat.pow 10 (-exponent).toNat * interval.unit.1) : Nat)
          * (1 / (10 ^ (-exponent).toNat * interval.unit.2)) : ℚ)
        = count * interval.step := by
    rw [step, Nat.pow_eq]
    push_cast
    field_simp
  have point
      : ((digits * (Nat.pow 10 exponent.toNat * interval.unit.2) : Nat)
          * (1 / (10 ^ (-exponent).toNat * interval.unit.2)) : ℚ)
        = digits * 10 ^ exponent := by
    rw [zpow_eq_div (by decide), Nat.pow_eq]
    push_cast
    field_simp
  have least := (meets_of_reaches lower).scale length
  have most := (meets_of_reaches upper).scale length
  rw [ends, point] at least
  rw [point, ends] at most
  exact ⟨least, most⟩

/-- The point that is found on a grid lies in the interval. The one below the value is above the
lower end if it is in, and below the upper one anyway, and the other way round for the one above.
-/
theorem Proper.holds_gridPoint (proper : interval.Proper) {exponent : ℤ} {digits : Nat}
    (found : interval.gridPoint? exponent = some digits)
    : interval.Holds (digits * 10 ^ exponent) := by
  have gapPos : 0 < Nat.pow 10 exponent.toNat * interval.unit.2 :=
    Nat.mul_pos (Nat.pow_pos (by decide)) proper.den_pos
  have scalePos : 0 < Nat.pow 10 (-exponent).toNat * interval.unit.1 :=
    Nat.mul_pos (Nat.pow_pos (by decide)) proper.num
  suffices scaled : _ ∧ _ from proper.holds_of_reaches scaled.1 scaled.2
  simp only [gridPoint?] at found
  -- Only that both are positive matters from here on.
  generalize Nat.pow 10 exponent.toNat * interval.unit.2 = gap at gapPos found ⊢
  generalize Nat.pow 10 (-exponent).toNat * interval.unit.1 = scale at scalePos found ⊢
  have split := Nat.div_add_mod' (interval.value * scale) gap
  have less := Nat.mod_lt (interval.value * scale) gapPos
  have below := Nat.mul_lt_mul_of_pos_right proper.below scalePos
  have above := Nat.mul_lt_mul_of_pos_right proper.above scalePos
  have strict {left right : Nat} (below : left < right) : interval.reaches left right = true := by
    simp [reaches, below]
  have under
      : interval.reaches (interval.value * scale / gap * gap) (interval.upper * scale) = true :=
    strict (by omega)
  have beyond
      : interval.reaches (interval.lower * scale) ((interval.value * scale / gap + 1) * gap)
        = true :=
    strict (by rw [Nat.succ_mul]; omega)
  split at found
  · cases found
  · next down _ =>
      cases found
      exact ⟨down, under⟩
  · next _ up =>
      cases found
      exact ⟨beyond, up⟩
  · next down up =>
      cases found
      split
      · exact ⟨beyond, up⟩
      · exact ⟨down, under⟩

/-- The search ends with a decimal in the interval, by induction on its fuel: on the first grid with
a point, or at last with the value itself.
-/
theorem Proper.holds_search (proper : interval.Proper) (fuel : Nat) (exponent : ℤ)
    : interval.Holds (interval.search fuel exponent).value := by
  induction fuel generalizing exponent with
  | zero =>
      obtain ⟨places, den⟩ := proper.den
      have exact : (interval.search 0 exponent).value = interval.value * interval.step := by
        simp only [search, Decimal.value, step, den, Nat.log2_two_pow, Nat.pow_eq, zpow_neg,
          zpow_natCast]
        rw [show (10 : ℚ) = 2 * 5 by norm_num, mul_pow]
        push_cast
        field_simp
      rw [exact]
      exact proper.holds_value
  | succ fuel ih =>
      rw [search]
      split
      · next found => exact proper.holds_gridPoint found
      · exact ih _

end Interval

/-- Factors of ten in the exponent instead of the digits do not change a decimal, by induction on
how many may be moved.
-/
theorem Decimal.value_strip (fuel : Nat) (decimal : Decimal)
    : (decimal.strip fuel).value = decimal.value := by
  induction fuel generalizing decimal with
  | zero => rfl
  | succ fuel ih =>
      rw [strip]
      split
      · next whole =>
          rw [ih, Decimal.value, Decimal.value, zpow_add_one₀ (by decide)]
          have tens : (decimal.digits : ℚ) = (decimal.digits / 10 : Nat) * 10 := by
            exact_mod_cast (Nat.div_mul_cancel (Nat.dvd_of_mod_eq_zero whole.1)).symm
          rw [tens]
          ring
      · rfl

-----------------------------------------------------------------------------------------
-- Reading back
-----------------------------------------------------------------------------------------

namespace Format

variable {format : Format}

theorem interval_proper (format : Format) {magnitude : Magnitude}
    (some : 0 < magnitude.significand)
    : (format.interval magnitude).Proper where
  below := by
    simp only [interval]
    split
    all_goals omega
  above := Nat.lt_add_of_pos_right (by decide)
  num := by
    simp only [interval, Nat.one_shiftLeft]
    exact Nat.two_pow_pos _
  den := ⟨_, Nat.one_shiftLeft _⟩

theorem interval_step (format : Format) (magnitude : Magnitude)
    : (format.interval magnitude).step = 2 ^ (magnitude.exponent - 2) := by
  rw [zpow_eq_div two_ne_zero, Interval.step]
  simp only [interval, Nat.one_shiftLeft]
  push_cast
  rfl

/-- The decimal that is written for a positive magnitude lies in its interval. -/
theorem holds_shortest (format : Format) {magnitude : Magnitude} (some : 0 < magnitude.significand)
    : (format.interval magnitude).Holds (format.shortest magnitude).value := by
  rw [shortest, Decimal.value_strip]
  exact (format.interval_proper some).holds_search _ _

/-- What lies in the interval of a finite pattern is rounded to it. -/
theorem nearest_of_holds (regular : format.Regular) {bits : Nat} (finite : bits < format.infinity)
    {number : ℚ} (holds : (format.interval (format.magnitude bits)).Holds number)
    : format.Nearest number bits := by
  obtain ⟨shift, significand, rfl, few, normal⟩ := format.exists_packed bits
  obtain ⟨lower, upper⟩ := holds
  have unit : (0 : ℚ) < 2 ^ format.leastExponent := by positivity
  have length : (0 : ℚ) < 4 / 2 ^ format.leastExponent := by positivity
  have quarters (count : ℚ)
      : count * 2 ^ (format.leastExponent + shift - 2) * (4 / 2 ^ format.leastExponent)
        = count * 2 ^ shift := by
    rw [zpow_sub₀ two_ne_zero, zpow_add₀ two_ne_zero, zpow_natCast]
    norm_num
    field_simp
  have units
      : number * (4 / 2 ^ format.leastExponent) = 4 * (number / 2 ^ format.leastExponent) := by
    ring
  have least := lower.scale length
  have most := upper.scale length
  rw [interval_step, format.magnitude_packed few normal (finite.trans format.infinity_lt), units,
    quarters] at least most
  simp only [interval, Nat.one_shiftLeft, beq_iff_eq] at least most
  have cell
      : format.Cell (shift * 2 ^ format.fractionBits + significand)
          (number / 2 ^ format.leastExponent) := by
    refine cell_packed regular few normal (fun some => ?_) ?_
    · have foot : format.leastExponent < format.leastExponent + shift ↔ 0 < shift := by omega
      simp only [foot] at least
      convert least using 2
      split
      · rw [Nat.cast_sub (by omega)]
        norm_num
      · rw [Nat.cast_sub (by omega)]
        norm_num
    · push_cast at most
      exact most
  have nearest := cell.nearest
  rwa [Nat.min_eq_left finite.le, div_mul_cancel₀ _ unit.ne'] at nearest

/-- The shortest decimal reads back as the pattern that it was written for. -/
theorem round_shortest (regular : format.Regular) {bits : Nat} (finite : bits < format.infinity)
    (some : 0 < bits)
    : format.round (format.shortest (format.magnitude bits)).value = bits := by
  have positive : 0 < (format.magnitude bits).significand := by
    obtain ⟨shift, significand, rfl, few, normal⟩ := format.exists_packed bits
    rw [format.magnitude_packed few normal (finite.trans format.infinity_lt)]
    rcases Nat.eq_zero_or_pos significand with rfl | positive
    · rw [normal.resolve_right (Nat.two_pow_pos _).not_ge] at some
      exact absurd some (by simp)
    · exact positive
  exact (nearest_of_holds regular finite (format.holds_shortest positive)).round_eq regular
    (Decimal.value_nonneg _)

end Format

end LazyTensor.Float
