import LazyTensor.Element
import LazyTensor.Operation

/-! How kernels spell numbers, functions and addresses in C. A literal reads back as the number
that it was made from, in the type that its suffix selects.
-/

namespace LazyTensor

namespace DType

/-- A math function in the variant for an element type. -/
def mathFunction (dtype : DType) (name : String) : String := name ++ dtype.mathSuffix

/-- Where literals change from one place after the point to scientific notation: ten to the
fifteenth, rounded to the element type.
-/
def plainLimit (dtype : DType) : Nat :=
  dtype.format.wholePart (dtype.format.encodeRatio false (Nat.pow 10 15) 1)

/-- A wide number as a literal of an element type, rounded to that type. -/
def literal (dtype : DType) (bits : UInt64) : String :=
  let number := (dtype.ofBinary64 bits).toNat
  let format := dtype.format
  if format.isNaN number then
    dtype.mathFunction "__builtin_nan" ++ "(\"\")"
  else if format.isInfinite number then
    (if format.isNegative number then "-" else "") ++ dtype.mathFunction "__builtin_inf" ++ "()"
  else if format.isIntegral number && decide (format.wholePart number < dtype.plainLimit) then
    format.onePlace number ++ dtype.mathSuffix
  else
    format.exponential number ++ dtype.mathSuffix

end DType

namespace Spelling

/-- The pattern of positive zero. -/
def zero : UInt64 := 0

/-- The pattern of negative infinity. -/
def negativeInfinity : UInt64 := 0xFFF0000000000000

/-- A linear index: products of a coordinate and a stride, summed. A stride of zero does not
move the index, and a stride of one needs no factor.
-/
def index (terms : List (String × Nat)) : String :=
  let moving := terms.filter (·.2 != 0)
  let parts := moving.map fun (coordinate, stride) =>
    if stride = 1 then coordinate else coordinate ++ " * " ++ stride.repr
  if parts.isEmpty then "0" else " + ".intercalate parts

/-- A function of one operand. -/
def unary (dtype : DType) (op : UnaryMap) (operand : String) : String :=
  match op with
  | .neg => "(-" ++ operand ++ ")"
  | .sin => dtype.mathFunction "sin" ++ "(" ++ operand ++ ")"
  | .sqrt => dtype.mathFunction "sqrt" ++ "(" ++ operand ++ ")"
  | .exp2 => dtype.mathFunction "exp2" ++ "(" ++ operand ++ ")"
  | .log2 => dtype.mathFunction "log2" ++ "(" ++ operand ++ ")"

/-- A function of two operands. The elements of a matrix product are multiplied. -/
def binary (dtype : DType) (op : BinaryMap) (left right : String) : String :=
  match op with
  | .add => "(" ++ left ++ " + " ++ right ++ ")"
  | .sub => "(" ++ left ++ " - " ++ right ++ ")"
  | .mul | .matmul => "(" ++ left ++ " * " ++ right ++ ")"
  | .div => "(" ++ left ++ " / " ++ right ++ ")"
  | .max => dtype.mathFunction "fmax" ++ "(" ++ left ++ ", " ++ right ++ ")"

/-- The statement that takes one more element into a fold. -/
def accumulate (dtype : DType) (op : Reduction) (total operand : String) : String :=
  match op with
  | .sum => total ++ " += " ++ operand ++ ";"
  | .max =>
      total ++ " = " ++ dtype.mathFunction "fmax" ++ "(" ++ total ++ ", " ++ operand ++ ");"

end Spelling

namespace Reduction

/-- The number that a fold starts from. -/
def identity : Reduction → UInt64
  | sum => Spelling.zero
  | max => Spelling.negativeInfinity

/-- The function that a fold repeats. -/
def step : Reduction → BinaryMap
  | sum => .add
  | max => .max

end Reduction

end LazyTensor
