import LazyTensor.Graph.Basic

/-! Reading arrays back. A flat read gives the stored elements. A shaped read arranges them
row-major under the stored shape and then repeats what lies behind a broadcast dimension; it
does not use strides.
-/

namespace LazyTensor

/-- What can be addressed stays below this number, in elements and in bytes. -/
def addressRange : Nat := 1 <<< 63

/-- Whether an array of a shape can be addressed. Dimensions of size zero do not help. -/
def Shape.isAddressable (shape : Shape) : Bool :=
  Shape.volume (shape.filter (· != 0)) < addressRange

/-- The row-major elements of one shape that start at a position, repeated along the dimensions
of size one up to another shape of the same rank.
-/
def repeatUnits (data : Array Pattern) : (stored shown : Shape) → (start : Nat) → List Pattern
  | extent :: stored, count :: shown, start =>
      let block := Shape.volume stored
      let rows :=
        (List.range extent).flatMap fun row =>
          repeatUnits data stored shown (start + row * block)
      if extent = count then rows else (List.replicate count rows).flatten
  | _, _, start => data[start]?.toList

namespace Graph

/-- The stored elements of a node. -/
def contents (graph : Graph) (buffer : Buffer) (dtype : DType) :
    Except GraphError (Array Pattern) :=
  match graph.storage? buffer.node with
  | none => .error (.notRealized buffer.node)
  | some storage =>
      match storage.read dtype with
      | .ok data => .ok data
      | .error cause => .error (.storage buffer.node cause)

/-- Why as many elements cannot be arranged under a shape, if so. -/
def arrangementError? (shape : Shape) (count : Nat) : Option ArrangementError :=
  if !shape.isAddressable then some .overflow
  else if count < shape.volume then some .outOfBounds
  else if shape.volume < count then some .incompatibleShape
  else none

/-- The elements that a buffer shows, in row-major order. -/
def elements (graph : Graph) (buffer : Buffer) (dtype : DType) :
    Except GraphError (List Pattern) := do
  let data ← graph.contents buffer dtype
  let stored := buffer.layout.physicalShape
  match arrangementError? stored data.size with
  | some cause => .error (.arrangement buffer.node cause)
  | none =>
      if !buffer.shape.isAddressable then
        .error (.shapeMismatch (.movement .expand) stored buffer.shape)
      else if addressRange ≤ buffer.shape.volume * dtype.bytes then
        .error (.arrangement buffer.node .capacity)
      else
        .ok (if buffer.shape.volume = 0 then [] else repeatUnits data stored buffer.shape 0)

end Graph

end LazyTensor
