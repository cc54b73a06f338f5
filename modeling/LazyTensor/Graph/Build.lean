import LazyTensor.Graph.Basic

/-! Building graphs. Every builder checks its arguments, appends at most the nodes that it
announces and answers with a buffer of the last one. Reshaping and expanding answer with
another view of the same node. A builder that fails keeps the graph that it has reached.
-/

namespace LazyTensor

/-- Steps on a graph that may be refused. -/
abbrev Build := ExceptT GraphError (StateM Graph)

namespace Build

/-- Refuses unless a condition holds. -/
def require (condition : Bool) (error : GraphError) : Build Unit :=
  if condition then pure () else throw error

/-- Appends a node and answers with the view of its own storage. -/
def append (node : Node) : Build Buffer :=
  modifyGet fun graph => (⟨graph.id, graph.size, node.dtype, node.layout⟩, graph.push node)

/-- Appends a deferred operation on buffers of this graph. -/
def record (kind : OpKind) (sources : List Buffer) (argument : Option Argument) (dtype : DType)
    (layout : Layout) : Build Buffer :=
  append {
    producer := some ⟨kind, sources.map Buffer.source, argument⟩
    device := .host
    dtype
    layout
    storage := none
    computed := false
  }

/-- Checks that a fill got the argument that it needs and no other. -/
def checkFillArgument (op : Fill) (argument : Option Argument) : Build Unit :=
  match op, argument with
  | .empty, none => pure ()
  | .constant, some (.value _) => pure ()
  | .random, some (.seed _) => pure ()
  | .constant, none | .random, none => throw (.missingArgument op)
  | _, some other => throw (.invalidArgument (.fill op) other)

/-- An array made from nothing. -/
def fill (op : Fill) (shape : Shape) (argument : Option Argument) (dtype : DType) :
    Build Buffer := do
  require shape.isValid (.invalidShape shape)
  checkFillArgument op argument
  record (.fill op) [] argument dtype (.dense shape)

/-- An array of data from outside. Its memory is taken before it becomes a node, so a failure
names the position that it would have had.
-/
def ofArray (dtype : DType) (data : Array Pattern) (shape : Shape) : Build Buffer := do
  require shape.isValid (.invalidShape shape)
  require (data.size == shape.size) (.dataLength shape shape.size data.size)
  let graph ← get
  match Storage.ofArray dtype data (graph.memory graph.size) with
  | .error cause => throw (.storage graph.size cause)
  | .ok storage =>
      append {
        producer := none
        device := .host
        dtype
        layout := .dense shape
        storage := some storage
        computed := true
      }

end Build

namespace Buffer

/-- Refuses operands of different graphs or element types. -/
def checkCompatible (left right : Buffer) : Build Unit := do
  Build.require (left.graph == right.graph) .graphMismatch
  Build.require (left.dtype == right.dtype) (.dtypeMismatch left.dtype right.dtype)

/-- The product of two matrices as one operation. -/
def dot (left right : Buffer) : Build Buffer := do
  left.checkCompatible right
  match left.shape, right.shape with
  | [rows, inner], [inner', columns] =>
      if inner = inner' then
        Build.require (Shape.isValid [rows, columns]) (.invalidShape [rows, columns])
        Build.record (.binary .matmul) [left, right] none left.dtype (.dense [rows, columns])
      else
        throw (.shapeMismatch (.binary .matmul) left.shape right.shape)
  | _, _ => throw (.shapeMismatch (.binary .matmul) left.shape right.shape)

/-- Refuses operands that do not fit a map of `kind` over `left`. -/
def checkOperands (kind : OpKind) (left : Buffer) : List Buffer → Build Unit
  | [] => pure ()
  | right :: rest => do
      left.checkCompatible right
      Build.require (right.shape == left.shape) (.shapeMismatch kind left.shape right.shape)
      checkOperands kind left rest

/-- A map of one or two operands of one shape. A map of one operand commutes with broadcast, so
its result keeps the layout of the operand and holds stored elements only; a map of two is
dense.
-/
def elementwise (left : Buffer) (kind : OpKind) (others : List Buffer) : Build Buffer := do
  match kind with
  | .unary _ | .binary _ => pure ()
  | _ => throw (.notElementwise kind)
  Build.require (others.length + 1 == kind.arity)
    (.arityMismatch kind kind.arity (others.length + 1))
  match kind, others with
  | .binary .matmul, right :: _ => left.dot right
  | _, _ => do
      left.checkOperands kind others
      let layout :=
        match kind with
        | .unary _ => left.layout
        | _ => .dense left.shape
      Build.record kind (left :: others) none left.dtype layout

/-- A function of every element. -/
def unary (buffer : Buffer) (op : UnaryMap) : Build Buffer := buffer.elementwise (.unary op) []

/-- A function of the elements of two arrays at the same index. -/
def binary (left : Buffer) (op : BinaryMap) (right : Buffer) : Build Buffer :=
  left.elementwise (.binary op) [right]

/-- Another view of the same node, if the change of layout is allowed. -/
def view (buffer : Buffer) (change : Layout → Except Layout.Error Layout) : Build Buffer :=
  match change buffer.layout with
  | .ok layout => pure (buffer.withLayout layout)
  | .error cause => throw (.ofLayout cause)

/-- The stored elements under another shape. -/
def reshape (buffer : Buffer) (shape : Shape) : Build Buffer := buffer.view (·.reshape shape)

/-- Dimensions of size one broadcast up to a shape. -/
def expand (buffer : Buffer) (shape : Shape) : Build Buffer := buffer.view (·.expand shape)

/-- Dimensions of size one around the view. -/
def withUnits (buffer : Buffer) (leading trailing : Nat) : Buffer :=
  buffer.withLayout (buffer.layout.insertUnits leading trailing)

/-- The shape whose dimensions are those of `shape` in another order. -/
def permutedShape (shape : Shape) (order : List Nat) : Shape :=
  order.filterMap fun axis => shape[axis]?

/-- The dimensions in another order. -/
def permute (buffer : Buffer) (order : List Nat) : Build Buffer := do
  Build.require (isPermutation order buffer.rank) (.invalidPermutation order buffer.rank)
  Build.record (.movement .permute) [buffer] (some (.order order)) buffer.dtype
    (.dense (permutedShape buffer.shape order))

/-- A shape with elements added around each dimension, if every sum fits in a word. -/
def paddedShape (shape : Shape) (padding : List (Nat × Nat)) : Option Shape :=
  (shape.zip padding).mapM fun (extent, before, after) =>
    (checkedAdd extent before).bind (checkedAdd · after)

/-- Zeros around each dimension. -/
def pad (buffer : Buffer) (padding : List (Nat × Nat)) : Build Buffer := do
  Build.require (padding.length == buffer.rank) (.invalidPadding padding.length buffer.rank)
  match paddedShape buffer.shape padding with
  | none => throw (.invalidShape buffer.shape)
  | some shape =>
      Build.require shape.isValid (.invalidShape shape)
      Build.record (.movement .pad) [buffer] (some (.padding padding)) buffer.dtype
        (.dense shape)

/-- A fold along a dimension, which disappears. -/
def reduce (buffer : Buffer) (op : Reduction) (axis : Nat) : Build Buffer := do
  Build.require (decide (axis < buffer.rank)) (.axisOutOfRange axis buffer.rank)
  Build.record (.reduce op) [buffer] (some (.axis axis)) buffer.dtype
    (.dense (buffer.shape.dropAxis axis))

/-- The last dimension of one array contracted with the first of another: both are broadcast to
all dimensions together, multiplied, and summed along the shared one.
-/
def matmul (left right : Buffer) : Build Buffer := do
  left.checkCompatible right
  Build.require (decide (0 < left.rank)) (.axisOutOfRange 0 left.rank)
  Build.require (decide (0 < right.rank)) (.axisOutOfRange 0 right.rank)
  Build.require (left.shape.getLast? == right.shape.head?)
    (.shapeMismatch (.binary .matmul) left.shape right.shape)
  let target := left.shape ++ right.shape.tail
  let spread ← (left.withUnits 0 (right.rank - 1)).expand target
  let other ← (right.withUnits (left.rank - 1) 0).expand target
  let products ← spread.binary .mul other
  products.reduce .sum (left.rank - 1)

end Buffer

namespace Graph

/-- Takes memory for a node, as much as its own layout needs. Memory is taken once. -/
def allocate (node : Nat) : Build Storage := do
  let graph ← get
  match graph.nodes[node]? with
  | none => throw (.notRealized node)
  | some found =>
      match found.storage with
      | some storage => pure storage
      | none =>
          match Storage.allocate found.dtype found.layout.physicalSize (graph.memory node) with
          | .error cause => throw (.storage node cause)
          | .ok storage =>
              modify (·.updateNode node ({ · with storage := some storage }))
              pure storage

/-- Records that the contents of a node are final. -/
def markComputed (node : Nat) : Build Unit := do
  Build.require ((← get).isAllocated node) (.notRealized node)
  modify (·.updateNode node ({ · with computed := true }))

end Graph

end LazyTensor
