import LazyTensor.Float.Format

/-! The shortest decimal of a number. The reals that round to a number form an interval; the
shortest decimal is the point of the coarsest decimal grid that lies in it, and of two such
points the nearer one, the upper on a tie.
-/

namespace LazyTensor.Float

/-- A decimal magnitude: `digits` times ten to the power `exponent`. -/
structure Decimal where
  digits : Nat
  exponent : Int
deriving DecidableEq, Repr

/-- The reals between two quarters that round to a magnitude. The ends and the value itself are
multiples of `unit`, a ratio, and the ends belong to the interval when `closed` holds.
-/
structure Interval where
  lower : Nat
  value : Nat
  upper : Nat
  unit : Nat × Nat
  closed : Bool
deriving DecidableEq, Repr

namespace Format

/-- The interval that rounds to a positive magnitude. Below a power of two the neighbour is only
half as far away, except at the foot of the format.
-/
def interval (format : Format) (magnitude : Magnitude) : Interval :=
  let significand := magnitude.significand
  let narrow := significand = 1 <<< format.fractionBits ∧ format.leastExponent < magnitude.exponent
  let quarter := magnitude.exponent - 2
  {
    lower := if narrow then 4 * significand - 1 else 4 * significand - 2
    value := 4 * significand
    upper := 4 * significand + 2
    unit := (1 <<< quarter.toNat, 1 <<< (-quarter).toNat)
    closed := significand % 2 == 0
  }

end Format

/-- How many decimal digits a natural number has; zero has none. -/
def digitCount (value : Nat) : Nat :=
  if value = 0 then 0 else (Nat.toDigits 10 value).length

/-- The least exponent of ten that is above a positive ratio. -/
def decimalPoint (num den : Nat) : Int :=
  if den ≤ num then digitCount (num / den) else 1 - (digitCount ((den - 1) / num) : Int)

namespace Interval

/-- Whether `left` is below `right`, or equal to it in a closed interval. -/
def reaches (interval : Interval) (left right : Nat) : Bool :=
  left < right || (interval.closed && left == right)

/-- The point that the interval has on the grid of a power of ten, if one of the two neighbours
of the value lies in it.
-/
def gridPoint? (interval : Interval) (exponent : Int) : Option Nat :=
  let gap := Nat.pow 10 exponent.toNat * interval.unit.2
  let scale := Nat.pow 10 (-exponent).toNat * interval.unit.1
  let below := interval.value * scale / gap
  let past := interval.value * scale % gap
  let down := interval.reaches (interval.lower * scale) (below * gap)
  let up := interval.reaches ((below + 1) * gap) (interval.upper * scale)
  match down, up with
  | false, false => none
  | true, false => some below
  | false, true => some (below + 1)
  | true, true => some (if gap ≤ 2 * past then below + 1 else below)

/-- The first grid with a point, from the one of `exponent` down through `fuel` finer ones. The
grid of the last resort holds the value itself.
-/
def search (interval : Interval) : (fuel : Nat) → (exponent : Int) → Decimal
  | 0, _ =>
      let (num, den) := interval.unit
      ⟨interval.value * num * Nat.pow 5 den.log2, -(den.log2 : Int)⟩
  | fuel + 1, exponent =>
      match interval.gridPoint? exponent with
      | some digits => ⟨digits, exponent⟩
      | none => interval.search fuel (exponent - 1)

end Interval

/-- Moves factors of ten from the digits to the exponent, at most `fuel` of them. -/
def Decimal.strip : (fuel : Nat) → Decimal → Decimal
  | 0, decimal => decimal
  | fuel + 1, decimal =>
      if decimal.digits % 10 = 0 ∧ decimal.digits ≠ 0 then
        strip fuel ⟨decimal.digits / 10, decimal.exponent + 1⟩
      else
        decimal

/-- The decimal with the fewest digits that rounds to a finite positive magnitude. Seventeen
digits suffice for either format.
-/
def Format.shortest (format : Format) (magnitude : Magnitude) : Decimal :=
  let interval := format.interval magnitude
  let (num, den) := interval.unit
  let first := decimalPoint (interval.value * num) den - 1
  let found := interval.search 17 first
  found.strip (digitCount found.digits)

end LazyTensor.Float
