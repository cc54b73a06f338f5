import LazyTensor.Kernel.Evaluation
import LazyTensor.Kernel.Spelling
import LazyTensor.Proofs.Shape.Rearrangement

/-! What operations make of arrays. Arrays are functions of an index here: nothing is known of
memory, strides or loops. Elements of maps and folds are computed with any arithmetic; constants
are rounded and draws depend on the seed and the flat index only.
-/

namespace LazyTensor

/-- An array: its shape and a number for each index. -/
structure LogicalArray where
  shape : Shape
  value : Index → Pattern

namespace LogicalArray

variable (arith : Arithmetic) (dtype : DType)

/-- A function of each element. -/
def mapped (op : UnaryMap) (source : LogicalArray) (index : Index) : Pattern :=
  arith.unary dtype op (source.value index)

/-- A function of two elements at each index. -/
def zipped (op : BinaryMap) (left right : LogicalArray) (index : Index) : Pattern :=
  arith.binary dtype op (left.value index) (right.value index)

/-- The elements along a dimension, taken one after the other into what is neutral. -/
def folded (op : Reduction) (axis : Nat) (source : LogicalArray) (index : Index) : Pattern :=
  (List.range (source.shape.getD axis 0)).foldl
    (fun total coordinate =>
      arith.binary dtype op.step total (source.value (index.insertIdx axis coordinate)))
    (dtype.ofBinary64 op.identity)

/-- The element that an exchange of dimensions leads to an index. -/
def permuted (order : List Nat) (source : LogicalArray) (index : Index) : Pattern :=
  source.value (Shape.unpermute order index)

/-- The element that padding moves to an index, or zero. -/
def padded (padding : List (Nat × Nat)) (source : LogicalArray) (index : Index) : Pattern :=
  match Shape.unshift source.shape padding index with
  | some inner => source.value inner
  | none => 0

/-- The sum of the products of a row and a column, in the order of the shared dimension. -/
def multiplied (left right : LogicalArray) (row column : Nat) : Pattern :=
  (List.range (left.shape.getD 1 0)).foldl
    (fun total place =>
      arith.binary dtype .add total
        (arith.binary dtype .mul (left.value [row, place]) (right.value [place, column])))
    0

end LogicalArray

open LogicalArray in
/-- The elements of an operation's result of some shape. -/
def Operation.result (arith : Arithmetic) (dtype : DType) (operation : Operation) (shape : Shape)
    (sources : List LogicalArray) (index : Index)
    : Pattern :=
  match operation.kind, operation.argument, sources with
  | .fill .constant, some (.value bits), [] => dtype.ofBinary64 bits
  | .fill .random, some (.seed seed), [] =>
      Random.uniform dtype seed (.ofNat (shape.position index))
  | .unary op, none, [source] => source.mapped arith dtype op index
  | .binary .matmul, none, [left, right] =>
      left.multiplied arith dtype right (index.getD 0 0) (index.getD 1 0)
  | .binary op, none, [left, right] => left.zipped arith dtype op right index
  | .reduce op, some (.axis axis), [source] => source.folded arith dtype op axis index
  | .movement .permute, some (.order order), [source] => source.permuted order index
  | .movement .pad, some (.padding padding), [source] => source.padded padding index
  | _, _, _ => 0

end LazyTensor
