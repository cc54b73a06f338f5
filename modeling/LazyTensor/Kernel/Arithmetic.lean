import LazyTensor.Operation
import LazyTensor.Random.Counter

/-! The arithmetic that kernels compute with, as a record. Kernels are evaluated for any such
record; `Arithmetic.ieee` is the one of the host.
-/

namespace LazyTensor

/-- What the numbers and functions of a kernel mean, for each element type. -/
structure Arithmetic where
  /-- A constant, given as the pattern of a wide float. -/
  constant : DType → UInt64 → Pattern
  /-- The draw of a seeded stream at a counter. -/
  draw : DType → UInt64 → UInt64 → Pattern
  unary : DType → UnaryMap → Pattern → Pattern
  binary : DType → BinaryMap → Pattern → Pattern → Pattern

namespace Arithmetic

/-- The same arithmetic with a constant worked out beforehand. -/
def remember (dtype : DType) (arith : Arithmetic) (bits : UInt64) : Arithmetic :=
  let value := arith.constant dtype bits
  { arith with
    constant := fun type word =>
      if type = dtype ∧ word = bits then value else arith.constant type word }

/-- Working a constant out beforehand does not change what it is. -/
theorem remember_eq (dtype : DType) (arith : Arithmetic) (bits : UInt64) :
    arith.remember dtype bits = arith := by
  obtain ⟨constant, draw, unary, binary⟩ := arith
  simp only [remember, mk.injEq, and_self, and_true]
  funext type word
  split
  · next same => rw [same.1, same.2]
  · rfl

/-- What the maximum of two patterns is if one of them is no number: the other one, unless one
raises a signal, which takes both.
-/
def survivor (format : Float.Format) (left right : Pattern) : Pattern :=
  if format.isSignaling left.toNat || format.isSignaling right.toNat then .ofNat format.nan
  else if format.isNaN left.toNat then right
  else left

/-- The greater of two narrow floats, the first one of equals, which shows on the zeros. -/
def maximum32 (left right : Pattern) : Pattern :=
  let this := Float32.ofBits left.toUInt32
  let that := Float32.ofBits right.toUInt32
  if this < that then right else if that ≤ this then left else survivor .binary32 left right

/-- The greater of two wide floats, the first one of equals, which shows on the zeros. -/
def maximum64 (left right : Pattern) : Pattern :=
  let this := Float.ofBits left
  let that := Float.ofBits right
  if this < that then right else if that ≤ this then left else survivor .binary64 left right

/-- A function of narrow floats on patterns. -/
@[inline] def onFloat32 (f : Float32 → Float32) (operand : Pattern) : Pattern :=
  (f (.ofBits operand.toUInt32)).toBits.toUInt64

/-- A function of two narrow floats on patterns. -/
@[inline] def onFloat32s (f : Float32 → Float32 → Float32) (left right : Pattern) : Pattern :=
  (f (.ofBits left.toUInt32) (.ofBits right.toUInt32)).toBits.toUInt64

/-- A function of wide floats on patterns. -/
@[inline] def onFloat64 (f : Float → Float) (operand : Pattern) : Pattern := (f (.ofBits operand)).toBits

/-- A function of two wide floats on patterns. -/
@[inline] def onFloat64s (f : Float → Float → Float) (left right : Pattern) : Pattern :=
  (f (.ofBits left) (.ofBits right)).toBits

/-- The functions of one element, correctly rounded where the host's library is. The other sign
is the other sign bit, whatever the pattern stands for.
-/
def ieeeUnary : DType → UnaryMap → Pattern → Pattern
  | .float32, .neg, operand => operand ^^^ (1 : Pattern) <<< 31
  | .float64, .neg, operand => operand ^^^ (1 : Pattern) <<< 63
  | .float32, .sin, operand => onFloat32 Float32.sin operand
  | .float32, .sqrt, operand => onFloat32 Float32.sqrt operand
  | .float32, .exp2, operand => onFloat32 Float32.exp2 operand
  | .float32, .log2, operand => onFloat32 Float32.log2 operand
  | .float64, .sin, operand => onFloat64 Float.sin operand
  | .float64, .sqrt, operand => onFloat64 Float.sqrt operand
  | .float64, .exp2, operand => onFloat64 Float.exp2 operand
  | .float64, .log2, operand => onFloat64 Float.log2 operand

/-- The functions of two elements, each rounded once. -/
def ieeeBinary : DType → BinaryMap → Pattern → Pattern → Pattern
  | .float32, .max, left, right => maximum32 left right
  | .float64, .max, left, right => maximum64 left right
  | .float32, .add, left, right => onFloat32s (· + ·) left right
  | .float32, .sub, left, right => onFloat32s (· - ·) left right
  | .float32, .mul, left, right | .float32, .matmul, left, right =>
      onFloat32s (· * ·) left right
  | .float32, .div, left, right => onFloat32s (· / ·) left right
  | .float64, .add, left, right => onFloat64s (· + ·) left right
  | .float64, .sub, left, right => onFloat64s (· - ·) left right
  | .float64, .mul, left, right | .float64, .matmul, left, right =>
      onFloat64s (· * ·) left right
  | .float64, .div, left, right => onFloat64s (· / ·) left right

/-- The arithmetic of the host. -/
def ieee : Arithmetic where
  constant := DType.ofBinary64
  draw := Random.uniform
  unary := ieeeUnary
  binary := ieeeBinary

end Arithmetic

end LazyTensor
