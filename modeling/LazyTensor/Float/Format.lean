/-! Binary floating-point formats as arithmetic on natural numbers. A pattern of bits stands
for sign, exponent field and fraction; `encodeRatio` rounds a ratio of naturals to the nearest
number of a format, halves to the even neighbour, and packs it.
-/

namespace LazyTensor.Float

/-- A binary interchange format: the bits of a significand, its leading bit included, and the
bits of the exponent field.
-/
structure Format where
  precision : Nat
  exponentBits : Nat
deriving DecidableEq, Repr

/-- A finite magnitude: `significand` times two to the power `exponent`. -/
structure Magnitude where
  significand : Nat
  exponent : Int
deriving DecidableEq, Repr

namespace Format

/-- The format of four bytes. -/
def binary32 : Format := ⟨24, 8⟩

/-- The format of eight bytes. -/
def binary64 : Format := ⟨53, 11⟩

/-- Bits of the fraction field. -/
@[inline] def fractionBits (format : Format) : Nat := format.precision - 1

/-- Bits in front of the sign. -/
def signPosition (format : Format) : Nat := format.fractionBits + format.exponentBits

/-- The exponent of the last place of the smallest numbers. -/
def leastExponent (format : Format) : Int :=
  2 - (1 <<< (format.exponentBits - 1) : Nat) - format.fractionBits

/-- The pattern of positive infinity: all bits of the exponent field and none of the fraction. -/
def infinity (format : Format) : Nat :=
  (1 <<< format.exponentBits - 1) <<< format.fractionBits

/-- The pattern that stands for no number. -/
def nan (format : Format) : Nat :=
  format.infinity + 1 <<< (format.fractionBits - 1)

/-- The pattern with its sign taken off. -/
def unsigned (format : Format) (bits : Nat) : Nat := bits % 1 <<< format.signPosition

/-- Whether the sign bit is set. -/
def isNegative (format : Format) (bits : Nat) : Bool := bits.testBit format.signPosition

/-- Whether the pattern stands for no number. -/
def isNaN (format : Format) (bits : Nat) : Bool := format.infinity < format.unsigned bits

/-- Whether the pattern stands for no number and raises a signal when it is computed with, which
the first bit of the fraction takes away.
-/
def isSignaling (format : Format) (bits : Nat) : Bool :=
  format.isNaN bits && !bits.testBit (format.fractionBits - 1)

/-- Whether the pattern is an infinity. -/
def isInfinite (format : Format) (bits : Nat) : Bool := format.unsigned bits == format.infinity

/-- Whether the pattern is one of the two zeros. -/
def isZero (format : Format) (bits : Nat) : Bool := format.unsigned bits == 0

/-- Puts a sign on an unsigned pattern. -/
def withSign (format : Format) (negative : Bool) (bits : Nat) : Nat :=
  if negative then 1 <<< format.signPosition + bits else bits

/-- The pattern with the other sign. -/
def opposite (format : Format) (bits : Nat) : Nat :=
  format.withSign (!format.isNegative bits) (format.unsigned bits)

/-- The magnitude of a finite pattern. A pattern whose exponent field is zero has no leading
bit of its own.
-/
def magnitude (format : Format) (bits : Nat) : Magnitude :=
  let field := format.unsigned bits >>> format.fractionBits
  let fraction := bits % 1 <<< format.fractionBits
  if field = 0 then
    ⟨fraction, format.leastExponent⟩
  else
    ⟨1 <<< format.fractionBits + fraction, format.leastExponent + (field - 1 : Nat)⟩

/-- The integer nearest to a ratio, a half going to the even neighbour. -/
def roundHalfEven (num den : Nat) : Nat :=
  let quotient := num / den
  match compare (2 * (num % den)) den with
  | .lt => quotient
  | .gt => quotient + 1
  | .eq => if quotient % 2 = 0 then quotient else quotient + 1

/-- A ratio divided by two to the power `exponent`, again as a ratio. -/
def scaled (num den : Nat) (exponent : Int) : Nat × Nat :=
  (num <<< (-exponent).toNat, den <<< exponent.toNat)

/-- The exponent of the leading bit of a positive ratio: the greatest `e` such that two to the
power `e` is at most `num / den`.
-/
def leadingExponent (num den : Nat) : Int :=
  let estimate : Int := (num.log2 : Int) - den.log2
  let (above, below) := scaled num den estimate
  if below ≤ above then estimate else estimate - 1

/-- The pattern of the number nearest to `num / den`. The exponent field and the significand
are added, not joined, so a significand that rounds up to the next power of two carries into
the field, and what passes the largest number ends at infinity.
-/
def encodeRatio (format : Format) (negative : Bool) (num den : Nat) : Nat :=
  if num = 0 then
    format.withSign negative 0
  else
    let exponent := max (leadingExponent num den - format.fractionBits) format.leastExponent
    let (above, below) := scaled num den exponent
    let packed :=
      (exponent - format.leastExponent).toNat <<< format.fractionBits + roundHalfEven above below
    format.withSign negative (min packed format.infinity)

/-- The pattern of `num` over two to the power of the precision, for a numerator below that.
Nothing is rounded: the bits move up until the leading one stands in front of the fraction.
-/
@[inline] def encodeFraction (format : Format) (num : Nat) : Nat :=
  if num = 0 then
    0
  else
    let lift := format.fractionBits - num.log2
    (1 <<< (format.exponentBits - 1) - 3 - lift) * 1 <<< format.fractionBits + num <<< lift

/-- A pattern of one format read as the nearest number of another. -/
def convert (source target : Format) (bits : Nat) : Nat :=
  if source.isNaN bits then
    target.nan
  else if source.isInfinite bits then
    target.withSign (source.isNegative bits) target.infinity
  else
    let ⟨significand, exponent⟩ := source.magnitude bits
    target.encodeRatio (source.isNegative bits)
      (significand <<< exponent.toNat) (1 <<< (-exponent).toNat)

/-- The place of a pattern among the numbers in order; the two zeros share one. -/
def rank (format : Format) (bits : Nat) : Int :=
  if format.isNegative bits then -(format.unsigned bits : Int) else format.unsigned bits

/-- Equality of two patterns as numbers: the zeros are equal, and what is no number differs from
everything.
-/
def numericEq (format : Format) (left right : Nat) : Bool :=
  !format.isNaN left && !format.isNaN right && format.rank left == format.rank right

/-- Whether a finite pattern is an integer. -/
def isIntegral (format : Format) (bits : Nat) : Bool :=
  let ⟨significand, exponent⟩ := format.magnitude bits
  significand % 1 <<< (-exponent).toNat == 0

/-- The magnitude of a finite pattern, cut to an integer. -/
def wholePart (format : Format) (bits : Nat) : Nat :=
  let ⟨significand, exponent⟩ := format.magnitude bits
  significand <<< exponent.toNat >>> (-exponent).toNat

end Format

end LazyTensor.Float
