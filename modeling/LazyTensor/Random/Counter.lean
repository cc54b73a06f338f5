import LazyTensor.Element

/-! Draws that depend on a seed and a counter only. Element `index` of a stream is a mix of the
counter's multiple of an odd increment, so the order in which elements are filled does not
matter, and any element can be drawn again.
-/

namespace LazyTensor.Random

/-- The distance between the states of two neighbouring counters. -/
def increment : UInt64 := 0x9E3779B97F4A7C15

/-- The first multiplier of the mix. -/
def firstMultiplier : UInt64 := 0xBF58476D1CE4E5B9

/-- The second multiplier of the mix. -/
def secondMultiplier : UInt64 := 0x94D049BB133111EB

/-- Folds the high bits of a word onto its low ones. -/
def foldHigh (word shift : UInt64) : UInt64 := word ^^^ (word >>> shift)

/-- Mixes the state of a counter into a word. -/
def mix (state : UInt64) : UInt64 :=
  foldHigh (foldHigh (foldHigh state 30 * firstMultiplier) 27 * secondMultiplier) 31

/-- The word at counter `index` of the stream of `seed`. -/
def word (seed index : UInt64) : UInt64 := mix (seed + (index + 1) * increment)

/-- The uniform draw from `[0, 1)` at a counter: the leading bits of the word, as many as a
significand has, behind a binary point.
-/
def uniform (dtype : DType) (seed index : UInt64) : Pattern :=
  let drawn := word seed index
  match dtype with
  | .float32 => .ofNat (Float.Format.binary32.encodeFraction (drawn >>> 40).toNat)
  | .float64 => .ofNat (Float.Format.binary64.encodeFraction (drawn >>> 11).toNat)

end LazyTensor.Random
