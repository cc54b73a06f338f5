import LazyTensor.Kernel.Program
import LazyTensor.Schedule

/-! From tasks to kernel programs. Sources are read through the strides of their views, the
output is dense. Changes of view have no kernel.
-/

namespace LazyTensor

/-- Why a task has no kernel. -/
inductive RenderError where
  | unsupportedOperation (kind : OpKind)
  | missingArgument (kind : OpKind)
  | arityMismatch (kind : OpKind) (expected actual : Nat)
  | dtypeMismatch (kind : OpKind) (expected actual : DType)
  /-- A source lacks a dimension that the kernel counts on. Tasks of a schedule have them all. -/
  | missingDimension (kind : OpKind)
deriving DecidableEq, Repr

/-- The text of an error. A missing dimension has none. -/
def RenderError.message : RenderError → Option String
  | unsupportedOperation kind =>
      some ("unsupported operation " ++ kind.label
        ++ ": view changes are resolved by the shape tracker")
  | missingArgument kind => some (kind.label ++ " requires an argument")
  | arityMismatch kind expected actual =>
      some (kind.label ++ " expects " ++ expected.repr ++ " sources, got " ++ actual.repr)
  | dtypeMismatch kind expected actual =>
      some (kind.label ++ " mixes element types " ++ expected.label ++ " and " ++ actual.label)
  | missingDimension _ => none

namespace Kernel

/-- A loop for each dimension, outermost first, over counters that start at `first`. -/
def nest (first : Nat) : Shape → Stmt → Stmt
  | [], body => body
  | extent :: inner, body => .loop first extent (nest (first + 1) inner body)

/-- The counters of a nest. -/
def counters (first rank : Nat) : List Nat := List.range' first rank

/-- The address at which counters meet strides. -/
def strided (counters strides : List Nat) : Address :=
  counters.zipWith (fun counter stride => ⟨counter, 0, stride⟩) strides

/-- The address of a flat loop. -/
def flatAddress : Address := [⟨0, 0, 1⟩]

/-- Writes one number to the first `count` elements. -/
def fillFlat (count : Nat) (value : Expr) : Stmt := .loop 0 count (.store flatAddress value)

/-- A function of each stored element. -/
def mapKernel (op : UnaryMap) (source : Layout) : Stmt :=
  fillFlat source.physicalSize (.unary op (.read 0 flatAddress))

/-- A function of two elements at each index of the shape. -/
def zipKernel (op : BinaryMap) (left right : Layout) : Stmt :=
  let vars := counters 0 left.rank
  nest 0 left.shape
    (.store (strided vars (Shape.strides left.shape))
      (.binary op (.read 0 (strided vars left.strides)) (.read 1 (strided vars right.strides))))

/-- A fold along a dimension: the output is set to the identity, then every element is taken
into the cell of its other coordinates.
-/
def reduceKernel (op : Reduction) (axis : Nat) (source : Layout) (result : Shape) : Stmt :=
  let vars := counters 1 source.rank
  .seq (fillFlat (Shape.size result) (.constant op.identity))
    (nest 1 source.shape
      (.fold op (strided (vars.eraseIdx axis) (Shape.strides result))
        (.read 0 (strided vars source.strides))))

/-- Moves each element to its place in the order of dimensions. -/
def permuteKernel (order : List Nat) (source : Layout) (result : Shape) : Stmt :=
  let vars := counters 0 source.rank
  nest 0 source.shape
    (.store (strided (order.filterMap fun axis => vars[axis]?) (Shape.strides result))
      (.read 0 (strided vars source.strides)))

/-- Zeros everywhere, then each element moved by what is padded before it. -/
def padKernel (padding : List (Nat × Nat)) (source : Layout) (result : Shape) : Stmt :=
  let vars := counters 1 source.rank
  let shifted : Address :=
    (vars.zip padding).zipWith (fun (var, before, _) stride => ⟨var, before, stride⟩)
      (Shape.strides result)
  .seq (fillFlat (Shape.size result) (.constant Spelling.zero))
    (nest 1 source.shape
      (.store shifted (.read 0 (strided vars source.strides))))

/-- The product of two matrices, a local sum for each cell of the result. -/
def matmulKernel (left right : Layout) : Stmt :=
  let rows := left.shape.getD 0 0
  let inner := left.shape.getD 1 0
  let columns := right.shape.getD 1 0
  .loop 0 rows (.loop 1 columns
    (.seq (.startSum (.constant Spelling.zero))
      (.seq
        (.loop 2 inner
          (.addProduct (.read 0 (strided [0, 2] left.strides))
            (.read 1 (strided [2, 1] right.strides))))
        (.storeSum (strided [0, 1] [columns, 1])))))

end Kernel

namespace Task

open Kernel

/-- The number that a fill writes at the counter of its loop. -/
def fillValue (task : Task) (op : Fill) : Except RenderError Expr :=
  match op with
  | .empty => .ok (.constant Spelling.zero)
  | .constant =>
      match task.operation.value? with
      | some bits => .ok (.constant bits)
      | none => .error (.missingArgument task.kind)
  | .random =>
      match task.operation.seed? with
      | some seed => .ok (.draw seed 0)
      | none => .error (.missingArgument task.kind)

/-- The first source whose element type is not that of the target. -/
def mixedSource? (task : Task) : Option Buffer :=
  task.sources.find? (·.dtype != task.target.dtype)

/-- Whether the source has all axes that an order names. An order is read up to one axis more
than the target has dimensions.
-/
def namesAxes (task : Task) (order : List Nat) (source : Buffer) : Bool :=
  (order.take (task.target.rank + 1)).all (· < source.rank)

/-- The kernel of a task. -/
def lower (task : Task) : Except RenderError Stmt :=
  if task.sources.length = task.kind.arity then
    match task.mixedSource? with
    | some source => .error (.dtypeMismatch task.kind task.target.dtype source.dtype)
    | none =>
        match task.kind, task.sources with
        | .fill op, _ => do
            let value ← task.fillValue op
            return fillFlat task.target.layout.physicalSize value
        | .unary op, [source] => .ok (mapKernel op source.layout)
        | .binary .matmul, [left, right] =>
            if 2 ≤ left.rank ∧ 2 ≤ right.rank then
              .ok (matmulKernel left.layout right.layout)
            else
              .error (.missingDimension task.kind)
        | .binary op, [left, right] => .ok (zipKernel op left.layout right.layout)
        | .reduce op, [source] =>
            match task.operation.axis? with
            | some axis => .ok (reduceKernel op axis source.layout task.target.shape)
            | none => .error (.missingArgument task.kind)
        | .movement .permute, [source] =>
            match task.operation.order? with
            | some order =>
                if task.namesAxes order source then
                  .ok (permuteKernel order source.layout task.target.shape)
                else
                  .error (.missingDimension task.kind)
            | none => .error (.missingArgument task.kind)
        | .movement .pad, [source] =>
            match task.operation.padding? with
            | some padding => .ok (padKernel padding source.layout task.target.shape)
            | none => .error (.missingArgument task.kind)
        | _, _ => .error (.unsupportedOperation task.kind)
  else
    .error (.arityMismatch task.kind task.kind.arity task.sources.length)

end Task

end LazyTensor
