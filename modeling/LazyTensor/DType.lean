/-! Element types and the device that holds them. An array stores IEEE-754 numbers of one of
two widths; a kernel spells the width as a C type and a suffix of its math functions.
-/

namespace LazyTensor

/-- The element type of an array. -/
inductive DType where
  | float32
  | float64
deriving DecidableEq, Repr

namespace DType

/-- Both element types, narrow first. -/
def all : List DType := [float32, float64]

/-- The type of an array whose maker names none. -/
instance : Inhabited DType := ⟨float32⟩

/-- Bytes that one element takes. -/
def bytes : DType → Nat
  | float32 => 4
  | float64 => 8

/-- The name that messages use. -/
def label : DType → String
  | float32 => "Float32"
  | float64 => "Float64"

/-- The C type of an element. -/
def cType : DType → String
  | float32 => "float"
  | float64 => "double"

/-- The short name inside kernel names. -/
def tag : DType → String
  | float32 => "f32"
  | float64 => "f64"

/-- What a C math function of this type has behind its name: `sqrtf` beside `sqrt`. -/
def mathSuffix : DType → String
  | float32 => "f"
  | float64 => ""

end DType

/-- Where an array lives. Host memory is the only place. -/
inductive Device where
  | host
deriving DecidableEq, Repr

/-- The name of a device. -/
def Device.label : Device → String
  | host => "CPU"

end LazyTensor
