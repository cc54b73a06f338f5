import LazyTensor.DType
import LazyTensor.Float.Format

/-! Elements as patterns of bits. A cell of an array holds the IEEE-754 pattern of one number; a
narrow number takes the low half of its cell. Constants arrive as wide patterns and are rounded
to the type of the array that they fill.
-/

namespace LazyTensor

/-- The pattern of one element, in the low bits of a word. -/
abbrev Pattern := UInt64

namespace DType

/-- The number format of an element type. -/
def format : DType → Float.Format
  | float32 => .binary32
  | float64 => .binary64

/-- A number of the wide format rounded to an element type. Wide numbers stay as they are, and
every pattern that stands for no number becomes the same one.
-/
def ofBinary64 : DType → UInt64 → Pattern
  | float32, bits => .ofNat (Float.Format.convert .binary64 .binary32 bits.toNat)
  | float64, bits =>
      if Float.Format.binary64.isNaN bits.toNat then .ofNat Float.Format.binary64.nan else bits

/-- A number of an element type in the wide format, which has every narrow one. -/
def toBinary64 : DType → Nat → UInt64
  | float32, bits => .ofNat (Float.Format.convert .binary32 .binary64 bits)
  | float64, bits => .ofNat bits

end DType

end LazyTensor
