import LazyTensor.Graph.Error

/-! Graphs of deferred arrays. A graph is an append-only list of nodes, and a node names its
sources by position, so every operation comes after what it reads. Storage and the mark that
its contents are final are kept apart: memory can be taken long before a kernel fills it.
-/

namespace LazyTensor

/-- One array: how it is made, where it lives and, once it has memory, its storage. -/
structure Node where
  /-- Absent for data that came from outside. -/
  producer : Option Operation
  device : Device
  dtype : DType
  /-- How the elements lie in the node's own storage. -/
  layout : Layout
  storage : Option Storage
  /-- Whether the storage holds the final contents. -/
  computed : Bool
deriving DecidableEq, Repr

/-- How many sources the operation of a node records. -/
def Node.sourceCount (node : Node) : Nat :=
  match node.producer with
  | none => 0
  | some operation => operation.sources.length

/-- Nodes in the order in which they were made. The number tells graphs apart. -/
structure Graph where
  id : Nat
  nodes : Array Node
  /-- Whether the host gives a number of bytes in one piece to a node. -/
  memory : (node bytes : Nat) → Bool

/-- A node of a graph, read under a layout. -/
structure Buffer where
  graph : Nat
  node : Nat
  dtype : DType
  layout : Layout
deriving DecidableEq, Repr

namespace Buffer

/-- The logical shape. -/
def shape (buffer : Buffer) : Shape := buffer.layout.shape

/-- The number of dimensions. -/
def rank (buffer : Buffer) : Nat := buffer.layout.rank

/-- The same node with another layout. -/
def withLayout (buffer : Buffer) (layout : Layout) : Buffer := { buffer with layout }

/-- The buffer as an operation records it. -/
def source (buffer : Buffer) : Source := ⟨buffer.node, buffer.layout⟩

/-- Whether two buffers are the same node of the same graph with the same history of views. -/
def same (left right : Buffer) : Bool :=
  left.graph == right.graph && left.node == right.node && left.layout == right.layout

/-- The buffer in a message: its node, its shape and, when it is broadcast, its factors. -/
def text (buffer : Buffer) : String :=
  let shown := nodeName buffer.node ++ Text.listing buffer.shape
  if buffer.layout.isContiguous then shown
  else shown ++ "/" ++ Text.listing buffer.layout.factors

/-- The buffer with its fields spelt out. -/
def description (buffer : Buffer) : String :=
  "LazyBuffer \x7b id: BufferId(" ++ buffer.node.repr ++ "), shape: "
    ++ Text.listing buffer.shape ++ ", factors: " ++ Text.listing buffer.layout.factors
    ++ " \x7d"

end Buffer

namespace Graph

/-- The graph without nodes, on a simulated host. -/
def empty (id : Nat) : Graph := ⟨id, #[], fun _ => Storage.simulatedMemory⟩

/-- The number of nodes. -/
def size (graph : Graph) : Nat := graph.nodes.size

/-- The graph with one more node. -/
def push (graph : Graph) (node : Node) : Graph := { graph with nodes := graph.nodes.push node }

/-- The graph with one node changed. -/
def updateNode (graph : Graph) (node : Nat) (change : Node → Node) : Graph :=
  { graph with nodes := graph.nodes.modify node change }

/-- The element type of a node. -/
def dtype (graph : Graph) (node : Nat) : DType :=
  match graph.nodes[node]? with
  | some found => found.dtype
  | none => default

/-- The storage of a node that has some. -/
def storage? (graph : Graph) (node : Nat) : Option Storage :=
  graph.nodes[node]?.bind (·.storage)

/-- Whether a node has memory. -/
def isAllocated (graph : Graph) (node : Nat) : Bool := (graph.storage? node).isSome

/-- Whether the contents of a node are final. -/
def isComputed (graph : Graph) (node : Nat) : Bool :=
  match graph.nodes[node]? with
  | some found => found.computed
  | none => false

/-- A node as it lies in its own storage. -/
def nodeView (graph : Graph) (node : Nat) : Option Buffer :=
  graph.nodes[node]?.map fun found => ⟨graph.id, node, found.dtype, found.layout⟩

/-- A recorded source as a buffer. -/
def sourceView (graph : Graph) (source : Source) : Buffer :=
  ⟨graph.id, source.node, graph.dtype source.node, source.layout⟩

/-- The graph with its fields spelt out. -/
def description (graph : Graph) : String :=
  "Graph \x7b nodes: " ++ graph.size.repr ++ " \x7d"

end Graph

end LazyTensor
