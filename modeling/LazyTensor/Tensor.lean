import LazyTensor.Engine.Run

/-! Tensors: buffers of one session with its default graph, its engine and its counter of seeds.
Every operation records nodes only; a tensor is computed when it is realized.
-/

namespace LazyTensor

/-- An array of a session. -/
structure Tensor where
  buffer : Buffer
deriving DecidableEq, Repr

/-- Why a tensor operation failed. -/
inductive TensorError where
  | graph (cause : GraphError)
  | schedule (cause : ScheduleError)
  | engine (cause : EngineError)
deriving DecidableEq, Repr

/-- The text of an error, unless the host words it. -/
def TensorError.message : TensorError → Option String
  | graph cause => some ("graph operation failed: " ++ cause.message)
  | schedule cause => some ("scheduling failed: " ++ cause.message)
  | engine cause => cause.message.map ("execution failed: " ++ ·)

/-- A machine and the seed that the next unseeded tensor takes. -/
structure Session where
  machine : Machine
  nextSeed : UInt64

namespace Session

/-- The number of the default graph. -/
def defaultGraph : Nat := 0

/-- A session with an empty default graph. -/
def start (engine : Engine) : Session := ⟨⟨.start, engine, .start⟩, 0⟩

end Session

/-- Steps of a session that may fail and keep what they have done. -/
abbrev Acting := ExceptT TensorError (StateM Session)

namespace Acting

/-- Runs a step on one graph. -/
def building {α : Type} (graph : Nat) (step : Build α) : Acting α := do
  let session ← get
  let (result, workspace) := session.machine.workspace.build graph step
  set { session with machine := { session.machine with workspace } }
  match result with
  | .ok value => return value
  | .error cause => throw (.graph cause)

/-- Runs a step on the machine. -/
def running {α : Type} (step : Running α) : Acting α := do
  let session ← get
  let (result, machine) := step.run.run session.machine
  set { session with machine }
  match result with
  | .ok value => return value
  | .error cause => throw (.engine cause)

end Acting

namespace Tensor

/-- The logical shape. -/
def shape (tensor : Tensor) : Shape := tensor.buffer.shape

/-- The number of dimensions. -/
def rank (tensor : Tensor) : Nat := tensor.buffer.rank

/-- The number of elements that the tensor shows. -/
def size (tensor : Tensor) : Nat := tensor.buffer.layout.logicalSize

/-- The graph that the tensor belongs to. -/
def graph (tensor : Tensor) (session : Session) : Graph :=
  session.machine.workspace.graph tensor.buffer.graph

/-- Whether the contents are final. -/
def isRealized (tensor : Tensor) (session : Session) : Bool :=
  (tensor.graph session).isComputed tensor.buffer.node

/-- A tensor from a buffer that was built on a graph. -/
def ofBuilder (graph : Nat) (step : Build Buffer) : Acting Tensor := do
  return ⟨← Acting.building graph step⟩

/-- A tensor from a buffer that was built from this one. -/
def derive (tensor : Tensor) (step : Buffer → Build Buffer) : Acting Tensor :=
  ofBuilder tensor.buffer.graph (step tensor.buffer)

/-- An array of the default graph made from nothing. -/
def fill (op : Fill) (shape : Shape) (argument : Option Argument) (dtype : DType) :
    Acting Tensor :=
  ofBuilder Session.defaultGraph (Build.fill op shape argument dtype)

/-- One number everywhere, given as the pattern of a wide float. -/
def full (shape : Shape) (value : UInt64) (dtype : DType) : Acting Tensor :=
  fill .constant shape (some (.value value)) dtype

/-- Zeros. -/
def zeros (shape : Shape) : Acting Tensor := full shape 0 default

/-- Ones. -/
def ones (shape : Shape) : Acting Tensor := full shape 0x3FF0000000000000 default

/-- An array without contents, realized as zeros. -/
def empty (shape : Shape) : Acting Tensor := fill .empty shape none default

/-- Uniform draws of a given seed. -/
def randomSeeded (shape : Shape) (seed : UInt64) : Acting Tensor :=
  fill .random shape (some (.seed seed)) default

/-- Uniform draws of the next seed. The seed is spent even if the shape is refused. -/
def random (shape : Shape) : Acting Tensor := do
  let seed := (← get).nextSeed
  modify ({ · with nextSeed := seed + 1 })
  randomSeeded shape seed

/-- Sets the seed that the next unseeded tensor takes. -/
def setSeed (seed : UInt64) : Acting Unit := modify ({ · with nextSeed := seed })

/-- A tensor of data from outside. -/
def ofArray (dtype : DType) (data : Array Pattern) (shape : Shape) : Acting Tensor :=
  ofBuilder Session.defaultGraph (Build.ofArray dtype data shape)

/-- A function of every element. -/
def map (tensor : Tensor) (op : UnaryMap) : Acting Tensor := tensor.derive (·.unary op)

/-- A function of the elements of two tensors at the same index. -/
def combine (left : Tensor) (op : BinaryMap) (right : Tensor) : Acting Tensor :=
  left.derive (·.binary op right.buffer)

/-- What an operator says when its operands are refused. -/
def operatorFailure (operator : String) (error : TensorError) : Option String :=
  error.message.map fun text => "tensor `" ++ operator ++ "` failed: " ++ text

/-- A fold along a dimension, which disappears. -/
def reduce (tensor : Tensor) (op : Reduction) (axis : Nat) : Acting Tensor :=
  tensor.derive (·.reduce op axis)

/-- The stored elements under another shape. -/
def reshape (tensor : Tensor) (shape : Shape) : Acting Tensor := tensor.derive (·.reshape shape)

/-- A fold along a dimension, which keeps size one. -/
def reduceKeeping (tensor : Tensor) (op : Reduction) (axis : Nat) : Acting Tensor := do
  let reduced ← tensor.reduce op axis
  reduced.reshape (tensor.shape.set axis 1)

/-- Dimensions of size one broadcast up to a shape. -/
def expand (tensor : Tensor) (shape : Shape) : Acting Tensor := tensor.derive (·.expand shape)

/-- The dimensions in another order. -/
def permute (tensor : Tensor) (order : List Nat) : Acting Tensor :=
  tensor.derive (·.permute order)

/-- Zeros around each dimension. -/
def pad (tensor : Tensor) (padding : List (Nat × Nat)) : Acting Tensor :=
  tensor.derive (·.pad padding)

/-- The axes in order, the last two exchanged. -/
def transposedOrder (rank : Nat) : List Nat :=
  match rank with
  | rank + 2 => List.range rank ++ [rank + 1, rank]
  | other => List.range other

/-- The last two dimensions exchanged. -/
def transpose (tensor : Tensor) : Acting Tensor := tensor.permute (transposedOrder tensor.rank)

/-- The contraction of the last dimension of one tensor with the first of another. -/
def matmul (left right : Tensor) : Acting Tensor := left.derive (·.matmul right.buffer)

/-- The product of two matrices as one operation. -/
def dot (left right : Tensor) : Acting Tensor := left.derive (·.dot right.buffer)

/-- What realizing a tensor would run. -/
def schedule (tensor : Tensor) : Acting Schedule := do
  match (tensor.graph (← get)).schedule tensor.buffer.node with
  | .ok schedule => return schedule
  | .error cause => throw (.schedule cause)

/-- Computes a tensor with everything that it needs. -/
def realize (arith : Arithmetic) (tensor : Tensor) : Acting Tensor := do
  let schedule ← tensor.schedule
  Acting.running (Machine.execute arith schedule)
  return tensor

/-- Reads a graph. -/
def reading {α : Type} (tensor : Tensor) (read : Graph → Except GraphError α) : Acting α := do
  match read (tensor.graph (← get)) with
  | .ok value => return value
  | .error cause => throw (.graph cause)

/-- The stored elements. -/
def contents (tensor : Tensor) (dtype : DType) : Acting (Array Pattern) :=
  tensor.reading (·.contents tensor.buffer dtype)

/-- The elements that the tensor shows, in row-major order. -/
def elements (tensor : Tensor) (dtype : DType) : Acting (List Pattern) :=
  tensor.reading (·.elements tensor.buffer dtype)

end Tensor

end LazyTensor
