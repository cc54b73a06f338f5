import Mathlib.Data.FinEnum
import LazyTensor.Random.Counter

/-! Streams of words do not repeat. The mix can be undone step by step: a word with its high bits
folded onto it is unfolded from the top, and an odd multiplier has an inverse. So all words come up
in every stream, each at one counter, and at every counter each word comes up for one seed.
-/

namespace LazyTensor.Random

-----------------------------------------------------------------------------------------
-- Steps of the mix
-----------------------------------------------------------------------------------------

/-- A word is known from what it is with its high bits folded onto it. The highest bits are not
touched, and each other bit is told by one that is higher.
-/
theorem foldHigh_injective {shift : UInt64} (moves : 0 < shift.toNat % 64)
    : Function.Injective (foldHigh · shift) := by
  intro word other same
  have folded
      : word.toNat ^^^ word.toNat >>> (shift.toNat % 64)
        = other.toNat ^^^ other.toNat >>> (shift.toNat % 64) := by
    simpa only [foldHigh, UInt64.toNat_xor, UInt64.toNat_shiftRight]
      using congrArg UInt64.toNat same
  -- By induction on the distance from the top.
  have bits (distance : Nat)
      : ∀ place, 64 ≤ place + distance →
          word.toNat.testBit place = other.toNat.testBit place := by
    induction distance with
    | zero =>
        intro place outside
        have above (number : UInt64) : number.toNat < 2 ^ place :=
          number.toNat_lt.trans_le (Nat.pow_le_pow_right (by decide) outside)
        rw [Nat.testBit_lt_two_pow (above word), Nat.testBit_lt_two_pow (above other)]
    | succ distance ih =>
        intro place inside
        have higher := ih (shift.toNat % 64 + place) (by omega)
        have here := congrArg (Nat.testBit · place) folded
        simp only [Nat.testBit_xor, Nat.testBit_shiftRight, higher] at here
        exact Bool.xor_left_inj.mp here
  refine UInt64.toNat_inj.mp (Nat.eq_of_testBit_eq ?_)
  exact fun place => bits 64 place (Nat.le_add_left 64 place)

/-- Multiplying by a word that has an inverse loses nothing. -/
theorem mul_injective {multiplier inverse : UInt64} (unit : multiplier * inverse = 1)
    : Function.Injective (· * multiplier) := by
  intro word other same
  calc
    word = word * multiplier * inverse := by rw [UInt64.mul_assoc, unit, UInt64.mul_one]
    _ = other * multiplier * inverse := congrArg (· * inverse) same
    _ = other := by rw [UInt64.mul_assoc, unit, UInt64.mul_one]

/-- The distance between neighbouring states is odd. -/
theorem increment_unit : increment * 0xF1DE83E19937733D = 1 := by decide

theorem firstMultiplier_unit : firstMultiplier * 0x96DE1B173F119089 = 1 := by decide

theorem secondMultiplier_unit : secondMultiplier * 0x319642B2D24D8EC3 = 1 := by decide

theorem mix_injective : Function.Injective mix := by
  have first := mul_injective firstMultiplier_unit
  have second := mul_injective secondMultiplier_unit
  have high : Function.Injective (foldHigh · 30) := foldHigh_injective (by decide)
  have middle : Function.Injective (foldHigh · 27) := foldHigh_injective (by decide)
  have low : Function.Injective (foldHigh · 31) := foldHigh_injective (by decide)
  exact low.comp (second.comp (middle.comp (first.comp high)))

-----------------------------------------------------------------------------------------
-- Streams
-----------------------------------------------------------------------------------------

/-- The states of a stream are all different. -/
theorem state_injective (seed : UInt64)
    : Function.Injective fun index : UInt64 => seed + (index + 1) * increment := by
  intro index other same
  have multiples := (UInt64.add_right_inj seed).mp same
  exact (UInt64.add_left_inj 1).mp (mul_injective increment_unit multiples)

/-- Every stream takes each word at one counter, and at every counter each word is that of one seed:
neither two counters of a stream nor two seeds at one counter share a word.
-/
theorem word_bijective
    : (∀ seed,
          Function.Bijective (word seed)
          ∧ ∀ index other, word seed index = word seed other ↔ index = other)
      ∧ ∀ index,
          Function.Bijective (word · index)
          ∧ ∀ seed other, word seed index = word other index ↔ seed = other := by
  have counters (seed : UInt64) : Function.Injective (word seed) :=
    mix_injective.comp (state_injective seed)
  have seeds (index : UInt64) : Function.Injective (word · index) := by
    intro seed other same
    exact (UInt64.add_left_inj _).mp (mix_injective same)
  constructor
  · intro seed
    exact ⟨Finite.injective_iff_bijective.mp (counters seed), fun _ _ => (counters seed).eq_iff⟩
  · intro index
    exact ⟨Finite.injective_iff_bijective.mp (seeds index), fun _ _ => (seeds index).eq_iff⟩

/-- The first words of the stream of zero. -/
example : word 0 0 = 0xE220A8397B1DCDAF ∧ word 0 1 = 0x6E789E6AA1B965F4 := by decide

end LazyTensor.Random
