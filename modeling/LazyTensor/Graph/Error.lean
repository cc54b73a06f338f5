import LazyTensor.Operation
import LazyTensor.Storage

/-! What can go wrong when a graph is built or its arrays are read. Each error names its cause;
the wording is in `Error.message`.
-/

namespace LazyTensor

/-- The name of a node. -/
def nodeName (node : Nat) : String := "buf" ++ node.repr

/-- Why stored elements cannot be arranged as an array of a shape. -/
inductive ArrangementError where
  /-- The shape needs more elements than there are. -/
  | outOfBounds
  /-- The shape needs fewer elements than there are. -/
  | incompatibleShape
  /-- The number of elements of the shape passes what can be addressed. -/
  | overflow
  /-- The elements that a broadcast shows pass what an array can hold. -/
  | capacity
deriving DecidableEq, Repr

/-- The text of an error. -/
def ArrangementError.message : ArrangementError → String
  | outOfBounds => "ShapeError/OutOfBounds: out of bounds indexing"
  | incompatibleShape => "ShapeError/IncompatibleShape: incompatible shapes"
  | overflow => "ShapeError/Overflow: arithmetic overflow"
  | capacity => "capacity overflow"

/-- Why an operation on a graph was refused. -/
inductive GraphError where
  | shapeMismatch (kind : OpKind) (expected actual : Shape)
  | invalidShape (shape : Shape)
  | missingArgument (op : Fill)
  | invalidArgument (kind : OpKind) (argument : Argument)
  | arityMismatch (kind : OpKind) (expected actual : Nat)
  | notElementwise (kind : OpKind)
  | dtypeMismatch (left right : DType)
  | graphMismatch
  | axisOutOfRange (axis rank : Nat)
  | invalidPermutation (order : List Nat) (rank : Nat)
  | invalidPadding (actual rank : Nat)
  | dataLength (shape : Shape) (expected actual : Nat)
  | notRealized (node : Nat)
  | storage (node : Nat) (cause : Storage.Error)
  | arrangement (node : Nat) (cause : ArrangementError)
deriving DecidableEq, Repr

namespace GraphError

/-- A refused view change as an error of a graph. -/
def ofLayout : Layout.Error → GraphError
  | .invalidShape shape => invalidShape shape
  | .cannotReshape stored requested => shapeMismatch (.movement .reshape) stored requested
  | .cannotExpand current requested => shapeMismatch (.movement .expand) current requested

/-- The text of an error. -/
def message : GraphError → String
  | shapeMismatch kind expected actual =>
      "shape mismatch in " ++ kind.label ++ ": expected " ++ Text.listing expected ++ ", got "
        ++ Text.listing actual
  | invalidShape shape =>
      "invalid shape " ++ Text.listing shape
        ++ ": dimensions must be positive and their product must fit in usize"
  | missingArgument op => op.name ++ " load requires an argument"
  | invalidArgument kind argument =>
      kind.label ++ " does not accept argument " ++ argument.text
  | arityMismatch kind expected actual =>
      kind.label ++ " expects " ++ expected.repr ++ " sources, got " ++ actual.repr
  | notElementwise kind => kind.label ++ " is not an elementwise operation"
  | dtypeMismatch left right =>
      "dtype mismatch: cannot combine " ++ left.label ++ " and " ++ right.label
  | graphMismatch => "buffers belong to different graphs"
  | axisOutOfRange axis rank =>
      "axis " ++ axis.repr ++ " out of range for rank " ++ rank.repr
  | invalidPermutation order rank =>
      "invalid permutation " ++ Text.listing order ++ ": expected permutation of 0.."
        ++ rank.repr
  | invalidPadding actual rank =>
      "padding has " ++ actual.repr ++ " entries but shape has rank " ++ rank.repr
  | dataLength shape expected actual =>
      "data has " ++ actual.repr ++ " elements, shape " ++ Text.listing shape ++ " needs "
        ++ expected.repr
  | notRealized node => nodeName node ++ " has no storage"
  | storage node _ => "storage error for " ++ nodeName node
  | arrangement node _ => "cannot view " ++ nodeName node ++ " as an array"

end GraphError

end LazyTensor
