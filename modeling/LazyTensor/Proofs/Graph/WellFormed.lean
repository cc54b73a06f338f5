import LazyTensor.Proofs.Layout.WellFormed
import LazyTensor.Proofs.Shape.Permutation

/-! Graphs that keep to the rules. Every operation reads nodes that came before it, under views
of just as many elements as those nodes store, and has the layout that its kind prescribes.
Storage, where there is any, has the type and the size of its node. Changes that only add
nodes, or only touch storage, keep what is known of a node's sources.
-/

namespace LazyTensor

/-- An operation whose sources and argument fit its kind, with the layout of its result. Only a
map of one source keeps the layout of the source; every other result is dense.
-/
inductive Operation.Yields : Operation → Layout → Prop
  | empty {shape : Shape}
    : Yields ⟨.fill .empty, [], none⟩ (.dense shape)
  | constant {shape : Shape} (bits : UInt64)
    : Yields ⟨.fill .constant, [], some (.value bits)⟩ (.dense shape)
  | random {shape : Shape} (seed : UInt64)
    : Yields ⟨.fill .random, [], some (.seed seed)⟩ (.dense shape)
  | unary (op : UnaryMap) (source : Source)
    : Yields ⟨.unary op, [source], none⟩ source.layout
  | binary (op : BinaryMap) (left right : Source) (elementwise : op ≠ .matmul)
    (same : right.layout.shape = left.layout.shape)
    : Yields ⟨.binary op, [left, right], none⟩ (.dense left.layout.shape)
  | matmul (left right : Source) {rows inner columns : Nat}
    (leftShape : left.layout.shape = [rows, inner])
    (rightShape : right.layout.shape = [inner, columns])
    : Yields ⟨.binary .matmul, [left, right], none⟩ (.dense [rows, columns])
  | reduce (op : Reduction) (source : Source) {axis : Nat}
    (inside : axis < source.layout.rank)
    : Yields ⟨.reduce op, [source], some (.axis axis)⟩
        (.dense (source.layout.shape.dropAxis axis))
  | permute (source : Source) {order : List Nat}
    (accepted : isPermutation order source.layout.rank = true)
    : Yields ⟨.movement .permute, [source], some (.order order)⟩
        (.dense (Buffer.permutedShape source.layout.shape order))
  | pad (source : Source) {padding : List (Nat × Nat)} {shape : Shape}
    (length : padding.length = source.layout.rank)
    (padded : Buffer.paddedShape source.layout.shape padding = some shape)
    : Yields ⟨.movement .pad, [source], some (.padding padding)⟩ (.dense shape)

theorem Operation.Yields.arity {operation : Operation} {layout : Layout}
    (yields : operation.Yields layout)
    : operation.sources.length = operation.kind.arity := by
  cases yields <;> rfl

-----------------------------------------------------------------------------------------
-- Nodes and graphs
-----------------------------------------------------------------------------------------

/-- A source reads an existing node of an element type, under a view that follows the rules, of
as many elements as the node stores.
-/
def Source.Reads (graph : Graph) (dtype : DType) (source : Source) : Prop :=
  source.layout.WellFormed
  ∧ ∃ node,
      graph.nodes[source.node]? = some node
      ∧ node.dtype = dtype
      ∧ source.layout.physicalSize = node.layout.physicalSize

/-- A node at some position of a graph that keeps to the rules. -/
structure Node.WellFormed (graph : Graph) (position : Nat) (node : Node) : Prop where
  layout : node.layout.WellFormed
  /-- Data from outside is dense and final. -/
  external
    : node.producer = none → node.computed = true ∧ node.layout = .dense node.layout.shape
  yields : ∀ operation, node.producer = some operation → operation.Yields node.layout
  earlier
    : ∀ operation, node.producer = some operation →
        ∀ source ∈ operation.sources, source.node < position
  reads
    : ∀ operation, node.producer = some operation →
        ∀ source ∈ operation.sources, source.Reads graph node.dtype
  storage
    : ∀ storage, node.storage = some storage →
        storage.dtype = node.dtype ∧ storage.size = node.layout.physicalSize
  /-- Contents are final only if there is memory for them. -/
  computed : node.computed = true → node.storage.isSome = true

/-- All nodes keep to the rules. -/
def Graph.WellFormed (graph : Graph) : Prop :=
  ∀ (position : Nat) (node : Node),
    graph.nodes[position]? = some node → node.WellFormed graph position

theorem Graph.empty_wellFormed (id : Nat) : (Graph.empty id).WellFormed := by
  intro position node found
  simp [Graph.empty] at found

/-- A buffer of a graph: a view of an existing node as a source, with the type of the node. -/
def Buffer.In (graph : Graph) (buffer : Buffer) : Prop :=
  buffer.graph = graph.id ∧ buffer.source.Reads graph buffer.dtype

theorem Graph.WellFormed.nodeView_in {graph : Graph} (wf : graph.WellFormed)
    {position : Nat} {buffer : Buffer} (found : graph.nodeView position = some buffer)
    : buffer.In graph := by
  obtain ⟨node, foundNode, rfl⟩ := Option.map_eq_some_iff.mp found
  exact ⟨rfl, (wf position node foundNode).layout, node, foundNode, rfl, rfl⟩

/-- A source as it was recorded is a buffer of its graph, of the type of the node. -/
theorem Source.Reads.sourceView_in {graph : Graph} {dtype : DType} {source : Source}
    (reads : source.Reads graph dtype)
    : (graph.sourceView source).In graph ∧ (graph.sourceView source).dtype = dtype := by
  obtain ⟨wf, node, found, type, size⟩ := reads
  have own : graph.dtype source.node = node.dtype := by rw [Graph.dtype, found]
  exact ⟨⟨rfl, wf, node, found, own.symm, size⟩, own.trans type⟩

-----------------------------------------------------------------------------------------
-- Later states of a graph
-----------------------------------------------------------------------------------------

/-- A later state of a node: how it is made, where it lives, its type and its layout stay. -/
structure Node.Continues (old new : Node) : Prop where
  producer : new.producer = old.producer
  device : new.device = old.device
  dtype : new.dtype = old.dtype
  layout : new.layout = old.layout

theorem Node.Continues.refl (node : Node) : node.Continues node := ⟨rfl, rfl, rfl, rfl⟩

theorem Node.Continues.trans {first second third : Node} (left : first.Continues second)
    (right : second.Continues third)
    : first.Continues third :=
  ⟨right.producer.trans left.producer, right.device.trans left.device,
    right.dtype.trans left.dtype, right.layout.trans left.layout⟩

/-- A later state of a graph: its nodes stay where they are and stay the same arrays. -/
structure Graph.Extends (old new : Graph) : Prop where
  id : new.id = old.id
  nodes
    : ∀ (position : Nat) (node : Node), old.nodes[position]? = some node →
        ∃ later, new.nodes[position]? = some later ∧ node.Continues later

namespace Graph.Extends

theorem refl (graph : Graph) : graph.Extends graph :=
  ⟨rfl, fun _ node found => ⟨node, found, .refl node⟩⟩

/-- A later state of a later state is a later state. -/
theorem trans {first second third : Graph} (left : first.Extends second)
    (right : second.Extends third)
    : first.Extends third := by
  refine ⟨right.id.trans left.id, ?_⟩
  intro position node found
  obtain ⟨middle, foundMiddle, stays⟩ := left.nodes position node found
  obtain ⟨last, foundLast, staysOn⟩ := right.nodes position middle foundMiddle
  exact ⟨last, foundLast, stays.trans staysOn⟩

theorem lt_size {old new : Graph} (later : old.Extends new) {position : Nat}
    (below : position < old.size)
    : position < new.size := by
  obtain ⟨_, found, _⟩ := later.nodes position _ (Array.getElem?_eq_getElem below)
  exact (Array.getElem?_eq_some_iff.mp found).1

theorem push (graph : Graph) (node : Node) : graph.Extends (graph.push node) := by
  refine ⟨rfl, ?_⟩
  intro position old found
  have below := (Array.getElem?_eq_some_iff.mp found).1
  refine ⟨old, ?_, .refl old⟩
  rw [Graph.push, Array.getElem?_push_lt below, ← Array.getElem?_eq_getElem below, found]

/-- Changing a node keeps the graph if it keeps the node. -/
theorem updateNode {graph : Graph} {position : Nat} {change : Node → Node}
    (keeps : ∀ node, graph.nodes[position]? = some node → node.Continues (change node))
    : graph.Extends (graph.updateNode position change) := by
  refine ⟨rfl, ?_⟩
  intro other node found
  simp only [Graph.updateNode, Array.getElem?_modify, found]
  by_cases same : position = other
  · subst same
    exact ⟨change node, by simp, keeps node found⟩
  · exact ⟨node, by simp [same], .refl node⟩

theorem reads {old new : Graph} (extends_ : old.Extends new) {dtype : DType} {source : Source}
    (reads : source.Reads old dtype)
    : source.Reads new dtype := by
  obtain ⟨wf, node, found, type, size⟩ := reads
  obtain ⟨later, foundLater, stays⟩ := extends_.nodes _ node found
  exact ⟨wf, later, foundLater, stays.dtype.trans type, size.trans (by rw [stays.layout])⟩

theorem buffer {old new : Graph} (extends_ : old.Extends new) {buffer : Buffer}
    (held : buffer.In old)
    : buffer.In new :=
  ⟨held.1.trans extends_.id.symm, extends_.reads held.2⟩

/-- A source shows the same in all later states of a graph. -/
theorem sourceView_eq {old new : Graph} (later : old.Extends new) {dtype : DType}
    {source : Source} (reads : source.Reads old dtype)
    : new.sourceView source = old.sourceView source := by
  obtain ⟨_, node, found, _⟩ := reads
  obtain ⟨next, foundNext, stays⟩ := later.nodes _ node found
  rw [sourceView, sourceView, later.id, Graph.dtype, Graph.dtype, found, foundNext]
  simp only [stays.dtype]

end Graph.Extends

theorem Node.WellFormed.extend {old new : Graph} {position : Nat} {node : Node}
    (wf : node.WellFormed old position) (later : old.Extends new)
    : node.WellFormed new position :=
  { wf with
    reads := fun operation made source member =>
      later.reads (wf.reads operation made source member) }

namespace Graph.WellFormed

/-- Adding a node that keeps to the rules keeps the graph to them. -/
theorem push {graph : Graph} (wf : graph.WellFormed) {node : Node}
    (fresh : node.WellFormed graph graph.size)
    : (graph.push node).WellFormed := by
  intro position found member
  have later := Graph.Extends.push graph node
  rw [Graph.push, Array.getElem?_push] at member
  split at member
  · next last =>
      obtain rfl := Option.some.inj member
      subst last
      exact fresh.extend later
  · exact (wf position found member).extend later

/-- Changing a node keeps the graph to the rules if the changed node keeps to them. -/
theorem updateNode {graph : Graph} (wf : graph.WellFormed) {position : Nat}
    {change : Node → Node}
    (keeps
      : ∀ node, graph.nodes[position]? = some node → node.WellFormed graph position →
          node.Continues (change node) ∧ (change node).WellFormed graph position)
    : (graph.updateNode position change).WellFormed := by
  have later : graph.Extends (graph.updateNode position change) :=
    .updateNode fun node found => (keeps node found (wf position node found)).1
  intro other node found
  rw [Graph.updateNode, Array.getElem?_modify] at found
  split at found
  · next same =>
      subst same
      obtain ⟨old, foundOld, rfl⟩ := Option.map_eq_some_iff.mp found
      exact (keeps old foundOld (wf position old foundOld)).2.extend later
  · exact (wf other node found).extend later

end Graph.WellFormed

end LazyTensor
