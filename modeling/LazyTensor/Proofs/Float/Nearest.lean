import Mathlib.Tactic.LinearCombination
import Mathlib.Tactic.Positivity
import LazyTensor.Proofs.Float.Units

/-! The nearest number. The numbers that round to a pattern lie around the number of the pattern,
half way to its neighbours on either side, with the ends if the pattern is even: that is its cell.
Every number has one nearest pattern, and the number of a pattern has that pattern.
-/

namespace LazyTensor.Float

/-- One number is below another, or it is an end that belongs to what it bounds. -/
def Meets (closed : Prop) (left right : ℚ) : Prop := left < right ∨ (left = right ∧ closed)

section Meets

variable {closed : Prop} {left right : ℚ}

theorem Meets.le (meets : Meets closed left right) : left ≤ right := by
  rcases meets with below | ⟨same, -⟩
  · exact below.le
  · exact same.le

theorem Meets.closed_of_eq (meets : Meets closed left right) (same : left = right) : closed := by
  rcases meets with below | ⟨-, closed⟩
  · exact absurd same below.ne
  · exact closed

theorem Meets.scale (meets : Meets closed left right) {factor : ℚ} (positive : 0 < factor)
    : Meets closed (left * factor) (right * factor) := by
  rcases meets with below | ⟨same, closed⟩
  · exact Or.inl (mul_lt_mul_of_pos_right below positive)
  · exact Or.inr ⟨congrArg (· * factor) same, closed⟩

end Meets

namespace Format

variable {format : Format} {number count : ℚ} {bits other : Nat}

-----------------------------------------------------------------------------------------
-- Nearest numbers
-----------------------------------------------------------------------------------------

/-- An unsigned pattern stands for the number of the format that is nearest to a number, and is even
if another is as near. The pattern of infinity counts as the number that would be next.
-/
structure Nearest (format : Format) (number : ℚ) (bits : Nat) : Prop where
  within : bits ≤ format.infinity
  nearest : ∀ other ≤ format.infinity,
      |number - (format.magnitude bits).value| ≤ |number - (format.magnitude other).value|
  even : ∀ other ≤ format.infinity, other ≠ bits →
      |number - (format.magnitude bits).value| = |number - (format.magnitude other).value| →
        bits % 2 = 0

theorem value_of_le (within : bits ≤ format.infinity)
    : (format.magnitude bits).value = format.units bits * 2 ^ format.leastExponent := by
  rw [value_magnitude, format.unsigned_of_lt (within.trans_lt format.infinity_lt)]

theorem value_strictMono (below : bits < other) (within : other ≤ format.infinity)
    : (format.magnitude bits).value < (format.magnitude other).value := by
  rw [value_of_le within, value_of_le (below.le.trans within)]
  have more : (format.units bits : ℚ) < format.units other := by
    exact_mod_cast format.units_strictMono below
  exact mul_lt_mul_of_pos_right more (by positivity)

/-- No two patterns are nearest to a number: a tie between neighbours is even on one side, and
between others lies one that is nearer.
-/
theorem Nearest.unique (nearest : format.Nearest number bits)
    (another : format.Nearest number other)
    : bits = other := by
  have ordered {low high : Nat} (lower : format.Nearest number low)
      (upper : format.Nearest number high)
      : ¬low < high := by
    intro below
    have tie := le_antisymm (lower.nearest high upper.within) (upper.nearest low lower.within)
    have evenLow := lower.even high upper.within below.ne' tie
    have evenHigh := upper.even low lower.within below.ne tie.symm
    have inside := (Nat.succ_le_of_lt below).trans upper.within
    have up := value_strictMono (Nat.lt_succ_self low) inside
    have upper' := value_strictMono (show low + 1 < high by omega) upper.within
    have middle := lower.nearest (low + 1) inside
    rcases abs_eq_abs.mp tie with same | opposite
    · linarith
    · have half : number = ((format.magnitude low).value + (format.magnitude high).value) / 2 := by
        linarith
      rw [abs_of_pos (by linarith)] at middle
      exact absurd middle (not_le.mpr (abs_lt.mpr ⟨by linarith, by linarith⟩))
  exact Nat.le_antisymm (Nat.le_of_not_lt (ordered another nearest))
    (Nat.le_of_not_lt (ordered nearest another))

/-- The number of a pattern is nearest to itself. -/
theorem nearest_value (within : bits ≤ format.infinity)
    : format.Nearest (format.magnitude bits).value bits where
  within := within
  nearest other _ := by
    rw [sub_self, abs_zero]
    exact abs_nonneg _
  even other inside different same := by
    rw [sub_self, abs_zero, eq_comm, abs_eq_zero, sub_eq_zero] at same
    rcases Nat.lt_or_gt_of_ne different with below | above
    · exact absurd same (value_strictMono below within).ne'
    · exact absurd same (value_strictMono above inside).ne

-----------------------------------------------------------------------------------------
-- Cells
-----------------------------------------------------------------------------------------

/-- A number of units lies in the cell of a pattern, which ends half way to the neighbours. -/
structure Cell (format : Format) (bits : Nat) (count : ℚ) : Prop where
  lower : ∀ prior, bits = prior + 1 →
      Meets (bits % 2 = 0) (format.units prior + format.units bits) (2 * count)
  upper : Meets (bits % 2 = 0) (2 * count) (format.units bits + format.units (bits + 1))

/-- Within a cell its own pattern is the nearest, and another is as near only at an end. -/
theorem Cell.distance (cell : format.Cell bits count) (different : other ≠ bits)
    : |count - format.units bits| ≤ |count - format.units other|
      ∧ (|count - format.units bits| = |count - format.units other| → bits % 2 = 0) := by
  have mono {low high : Nat} (most : low ≤ high)
      : (format.units low : ℚ) ≤ format.units high := by
    exact_mod_cast format.units_strictMono.monotone most
  have strict {low high : Nat} (below : low < high)
      : (format.units low : ℚ) < format.units high := by
    exact_mod_cast format.units_strictMono below
  rcases Nat.lt_or_gt_of_ne different with below | above
  · obtain ⟨prior, rfl⟩ := Nat.exists_eq_succ_of_ne_zero (Nat.ne_zero_of_lt below)
    have lower := cell.lower prior rfl
    have half := lower.le
    have step := strict (Nat.lt_succ_self prior)
    have least := mono (Nat.le_of_lt_succ below)
    have right : |count - format.units other| = count - format.units other :=
      abs_of_nonneg (by linarith)
    rw [right]
    refine ⟨abs_le.mpr ⟨by linarith, by linarith⟩, fun same => lower.closed_of_eq ?_⟩
    rcases abs_choice (count - format.units (prior + 1)) with apart | apart
    · linarith
    · linarith
  · have half := cell.upper.le
    have step := strict (Nat.lt_succ_self bits)
    have most := mono (Nat.succ_le_of_lt above)
    have left : |count - format.units other| = -(count - format.units other) :=
      abs_of_nonpos (by linarith)
    rw [left]
    refine ⟨abs_le.mpr ⟨by linarith, by linarith⟩, fun same => cell.upper.closed_of_eq ?_⟩
    rcases abs_choice (count - format.units bits) with apart | apart
    · linarith
    · linarith

/-- What lies in the cell of a pattern is rounded to it, or to infinity if the pattern is beyond. -/
theorem Cell.nearest (cell : format.Cell bits count)
    : format.Nearest (count * 2 ^ format.leastExponent) (min bits format.infinity) := by
  have unit : (0 : ℚ) < 2 ^ format.leastExponent := by positivity
  -- It is enough to compare numbers of units.
  suffices compared
      : ∀ other ≠ min bits format.infinity, other ≤ format.infinity →
          |count - format.units (min bits format.infinity)| ≤ |count - format.units other|
          ∧ (|count - format.units (min bits format.infinity)| = |count - format.units other| →
            min bits format.infinity % 2 = 0) by
    have scaled {other : Nat} (inside : other ≤ format.infinity)
        : |count * 2 ^ format.leastExponent - (format.magnitude other).value|
          = |count - format.units other| * 2 ^ format.leastExponent := by
      rw [value_of_le inside, ← sub_mul, abs_mul, abs_of_pos unit]
    have within := Nat.min_le_right bits format.infinity
    refine ⟨within, fun other inside => ?_, fun other inside different same => ?_⟩
    · rw [scaled within, scaled inside]
      rcases eq_or_ne other (min bits format.infinity) with rfl | different
      · exact le_rfl
      · exact mul_le_mul_of_nonneg_right (compared other different inside).1 unit.le
    · rw [scaled within, scaled inside] at same
      exact (compared other different inside).2 (mul_right_cancel₀ unit.ne' same)
  intro other different inside
  -- In a cell beyond infinity the number is above all patterns, so the last one is nearest.
  rcases Nat.le_total bits format.infinity with finite | beyond
  · rw [Nat.min_eq_left finite] at different ⊢
    exact cell.distance different
  · rw [Nat.min_eq_right beyond] at different ⊢
    rcases Nat.eq_or_lt_of_le beyond with rfl | above
    · exact cell.distance different
    · obtain ⟨prior, rfl⟩ := Nat.exists_eq_succ_of_ne_zero (Nat.ne_zero_of_lt above)
      have half := (cell.lower prior rfl).le
      have step : (format.units prior : ℚ) < format.units (prior + 1) := by
        exact_mod_cast format.units_strictMono (Nat.lt_succ_self prior)
      have past : (format.units format.infinity : ℚ) ≤ format.units prior := by
        exact_mod_cast format.units_strictMono.monotone (Nat.le_of_lt_succ above)
      have less : (format.units other : ℚ) < format.units format.infinity := by
        exact_mod_cast format.units_strictMono (Nat.lt_of_le_of_ne inside different)
      rw [abs_of_nonneg (by linarith), abs_of_nonneg (by linarith)]
      exact ⟨by linarith, fun same => absurd same (by linarith)⟩

/-- The cell of a pattern in quarters of its last place. Below a power of two the neighbour is only
half as far away, except at the foot of the format.
-/
theorem cell_packed (regular : format.Regular) {shift significand : Nat}
    (few : significand < 2 ^ (format.fractionBits + 1))
    (normal : shift = 0 ∨ 2 ^ format.fractionBits ≤ significand)
    (lower : 0 < significand →
      Meets (significand % 2 = 0)
        ((if significand = 2 ^ format.fractionBits ∧ 0 < shift then 4 * significand - 1
          else 4 * significand - 2 : ℚ) * 2 ^ shift)
        (4 * count))
    (upper : Meets (significand % 2 = 0) (4 * count) ((4 * significand + 2) * 2 ^ shift))
    : format.Cell (shift * 2 ^ format.fractionBits + significand) count := by
  obtain ⟨bits, fraction⟩ := Nat.exists_eq_add_of_le regular.fraction
  have parity
      : significand % 2 = (shift * 2 ^ format.fractionBits + significand) % 2 := by
    rw [fraction, Nat.add_comm 1, Nat.pow_succ, ← Nat.mul_assoc, Nat.mul_add_mod_self_right]
  have halved {left right : ℚ} (meets : Meets (significand % 2 = 0) (2 * left) (2 * right))
      : Meets ((shift * 2 ^ format.fractionBits + significand) % 2 = 0) left right := by
    have half := meets.scale (show (0 : ℚ) < 1 / 2 by norm_num)
    rw [parity] at half
    ring_nf at half ⊢
    exact half
  constructor
  · intro prior same
    refine halved ?_
    rcases Nat.eq_zero_or_pos significand with rfl | positive
    · obtain rfl := normal.resolve_right (Nat.two_pow_pos _).not_ge
      simp at same
    have bound := lower positive
    rw [format.units_packed few.le normal]
    -- Below a power of two the last pattern of one shift less is the neighbour.
    by_cases narrow : significand = 2 ^ format.fractionBits ∧ 0 < shift
    · rw [if_pos narrow] at bound
      obtain ⟨rfl, some⟩ := narrow
      obtain ⟨finer, rfl⟩ := Nat.exists_eq_succ_of_ne_zero some.ne'
      obtain ⟨last, most⟩
          := Nat.exists_eq_succ_of_ne_zero (Nat.two_pow_pos (format.fractionBits + 1)).ne'
      rw [Nat.pow_succ] at most
      obtain rfl : prior = finer * 2 ^ format.fractionBits + last := by
        rw [Nat.succ_mul] at same
        omega
      have double : (last : ℚ) + 1 = 2 ^ format.fractionBits * 2 := by exact_mod_cast most.symm
      rw [format.units_packed (by rw [Nat.pow_succ]; omega) (Or.inr (by omega))]
      push_cast at bound ⊢
      convert bound using 1
      · rw [pow_succ]
        linear_combination 2 * 2 ^ finer * double
      · ring
    · rw [if_neg narrow] at bound
      obtain ⟨less, rfl⟩ := Nat.exists_eq_succ_of_ne_zero positive.ne'
      obtain rfl : prior = shift * 2 ^ format.fractionBits + less := by omega
      rw [format.units_packed (by omega) (by omega)]
      push_cast at bound ⊢
      ring_nf at bound ⊢
      exact bound
  · refine halved ?_
    rw [format.units_succ few normal, format.units_packed few.le normal]
    push_cast
    ring_nf at upper ⊢
    exact upper

end Format

end LazyTensor.Float
