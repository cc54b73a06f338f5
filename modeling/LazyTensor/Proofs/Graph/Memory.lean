import LazyTensor.Proofs.Graph.WellFormed
import LazyTensor.Proofs.Outcome

/-! Taking memory for a node and marking its contents as final. Both keep a graph to the rules,
and what was computed before stays as it is. How much memory there is for a node is up to the host and
may change at any time.
-/

namespace LazyTensor

/-- A node with storage. -/
def Node.stored (storage : Storage) (node : Node) : Node := { node with storage := some storage }

/-- A node whose contents are final. -/
def Node.finished (node : Node) : Node := { node with computed := true }

theorem Node.continues_stored (storage : Storage) (node : Node)
    : node.Continues (node.stored storage) :=
  ⟨rfl, rfl, rfl, rfl⟩

theorem Node.continues_finished (node : Node) : node.Continues node.finished :=
  ⟨rfl, rfl, rfl, rfl⟩

/-- A node keeps to the rules with any storage of its type and size. -/
theorem Node.WellFormed.stored {graph : Graph} {position : Nat} {node : Node}
    (wf : node.WellFormed graph position) {storage : Storage}
    (type : storage.dtype = node.dtype) (size : storage.size = node.layout.physicalSize)
    : (node.stored storage).WellFormed graph position where
  layout := wf.layout
  external := wf.external
  yields := wf.yields
  earlier := wf.earlier
  reads := wf.reads
  storage := by
    intro _ found
    cases found
    exact ⟨type, size⟩
  computed := fun _ => rfl

/-- A node with memory keeps to the rules when it is finished. -/
theorem Node.WellFormed.finished {graph : Graph} {position : Nat} {node : Node}
    (wf : node.WellFormed graph position) (allocated : node.storage.isSome = true)
    : node.finished.WellFormed graph position where
  layout := wf.layout
  external := fun absent => ⟨rfl, (wf.external absent).2⟩
  yields := wf.yields
  earlier := wf.earlier
  reads := wf.reads
  storage := wf.storage
  computed := fun _ => allocated

theorem Storage.allocate_eq_ok {dtype : DType} {size : Nat} {gives : Nat → Bool} {storage : Storage}
    (done : Storage.allocate dtype size gives = .ok storage)
    : storage = ⟨dtype, Array.replicate size 0⟩ := by
  rw [Storage.allocate] at done
  split at done
  · cases done
  · exact (Except.ok.inj done).symm

namespace Graph

/-- The storage of a node is known: it was there before, or it is zeroed memory of the size of
the node.
-/
inductive Allocates (graph : Graph) (position : Nat) (storage : Storage) : Graph → Prop
  | kept (node : Node) (found : graph.nodes[position]? = some node)
    (had : node.storage = some storage)
    : Allocates graph position storage graph
  | taken (node : Node) (found : graph.nodes[position]? = some node)
    (had : node.storage = none)
    (zeroed : storage = ⟨node.dtype, Array.replicate node.layout.physicalSize 0⟩)
    : Allocates graph position storage (graph.updateNode position (·.stored storage))

/-- Taking memory answers with the storage of the node or leaves the graph as it was. -/
theorem allocate_ends (position : Nat) (graph : Graph)
    : Ends (allocate position) graph (graph.Allocates position) (fun _ final => final = graph) := by
  simp only [allocate, ends_bind, ends_get]
  split
  · trivial
  · next node found =>
      split
      · next storage had => exact .kept node found had
      · next had =>
          split
          · trivial
          · next storage made =>
              exact .taken node found had (Storage.allocate_eq_ok made)

/-- Marking needs memory and touches one node. -/
theorem markComputed_ends (position : Nat) (graph : Graph)
    : Ends (markComputed position) graph
        (fun _ final =>
          graph.isAllocated position = true ∧ final = graph.updateNode position Node.finished)
        (fun _ final => final = graph) := by
  unfold markComputed Build.require
  simp only [ends_bind, ends_get, ends_ite]
  split
  · next allocated => exact ⟨allocated, rfl⟩
  · trivial

theorem extends_stored (graph : Graph) (position : Nat) (storage : Storage)
    : graph.Extends (graph.updateNode position (·.stored storage)) :=
  .updateNode fun node _ => node.continues_stored storage

theorem extends_finished (graph : Graph) (position : Nat)
    : graph.Extends (graph.updateNode position Node.finished) :=
  .updateNode fun node _ => node.continues_finished

/-- Storage of the type and size of its node keeps the graph to the rules. -/
theorem WellFormed.stored {graph : Graph} (wf : graph.WellFormed) {position : Nat}
    {storage : Storage}
    (fit
      : ∀ node, graph.nodes[position]? = some node →
          storage.dtype = node.dtype ∧ storage.size = node.layout.physicalSize)
    : (graph.updateNode position (·.stored storage)).WellFormed := by
  refine wf.updateNode ?_
  intro node found nodeWf
  obtain ⟨type, size⟩ := fit node found
  exact ⟨node.continues_stored storage, nodeWf.stored type size⟩

theorem WellFormed.finished {graph : Graph} (wf : graph.WellFormed) {position : Nat}
    (allocated : graph.isAllocated position = true)
    : (graph.updateNode position Node.finished).WellFormed := by
  refine wf.updateNode ?_
  intro node found nodeWf
  rw [isAllocated, storage?, found] at allocated
  exact ⟨node.continues_finished, nodeWf.finished allocated⟩

/-- Storage that was had before or taken anew has the type and size of its node. -/
theorem Allocates.storage_fits {graph final : Graph} {position : Nat} {storage : Storage}
    (allocates : graph.Allocates position storage final) (wf : graph.WellFormed)
    : ∃ node,
        graph.nodes[position]? = some node
        ∧ storage.dtype = node.dtype
        ∧ storage.size = node.layout.physicalSize := by
  cases allocates with
  | kept node found had => exact ⟨node, found, (wf position node found).storage storage had⟩
  | taken node found had zeroed =>
      subst zeroed
      exact ⟨node, found, rfl, Array.size_replicate⟩

/-- Storage that was had before or taken anew is the storage of its node. -/
theorem Allocates.storage?_eq {graph final : Graph} {position : Nat} {storage : Storage}
    (allocates : graph.Allocates position storage final)
    : final.storage? position = some storage := by
  cases allocates with
  | kept node found had => rw [storage?, found, Option.bind_some, had]
  | taken node found =>
      rw [storage?, updateNode, Array.getElem?_modify, if_pos rfl, found]
      rfl

/-- Taking memory keeps the graph to the rules. -/
theorem Allocates.wellFormed {graph final : Graph} {position : Nat} {storage : Storage}
    (allocates : graph.Allocates position storage final) (wf : graph.WellFormed)
    : final.WellFormed := by
  obtain ⟨node, found, type, size⟩ := allocates.storage_fits wf
  cases allocates with
  | kept => exact wf
  | taken =>
      refine wf.stored ?_
      intro other foundOther
      obtain rfl := Option.some.inj (found.symm.trans foundOther)
      exact ⟨type, size⟩

theorem Allocates.extends_ {graph final : Graph} {position : Nat} {storage : Storage}
    (allocates : graph.Allocates position storage final)
    : graph.Extends final := by
  cases allocates with
  | kept => exact .refl graph
  | taken => exact graph.extends_stored position storage

-----------------------------------------------------------------------------------------
-- Sizes of storage
-----------------------------------------------------------------------------------------

/-- How many elements the storage of a node has. -/
def capacity (graph : Graph) (position : Nat) : Nat :=
  match graph.nodes[position]? with
  | some node => node.layout.physicalSize
  | none => 0

/-- A source shows a node under a view of as many elements as the node stores. -/
theorem capacity_of_reads {graph : Graph} {dtype : DType} {source : Source}
    (reads : source.Reads graph dtype)
    : source.layout.physicalSize = graph.capacity source.node := by
  obtain ⟨_, node, found, _, size⟩ := reads
  rw [size, capacity, found]

/-- Taking memory keeps a graph to the rules, however it ends. -/
theorem allocate_later {graph : Graph} (wf : graph.WellFormed) (position : Nat)
    : (outcome (allocate position) graph).2.WellFormed
      ∧ graph.Extends (outcome (allocate position) graph).2 := by
  refine Ends.final (fun final => final.WellFormed ∧ graph.Extends final)
    ((allocate_ends position graph).mono ?_ ?_)
  · intro storage final allocates
    exact ⟨allocates.wellFormed wf, allocates.extends_⟩
  · intro _ _ same
    subst same
    exact ⟨wf, .refl _⟩

/-- From now on the host gives other amounts of memory to the nodes of a graph. -/
def serve (memory : (node bytes : Nat) → Bool) : Build Unit := modify ({ · with memory })

/-- With other memory of the host a graph keeps to the rules. -/
theorem serve_later {graph : Graph} (wf : graph.WellFormed) (memory : (node bytes : Nat) → Bool)
    : (outcome (serve memory) graph).2.WellFormed
      ∧ graph.Extends (outcome (serve memory) graph).2 := by
  have later : graph.Extends { graph with memory } :=
    ⟨rfl, fun _ node found => ⟨node, found, .refl node⟩⟩
  exact ⟨fun position node found => (wf position node found).extend later, later⟩

/-- Marking a node as computed keeps a graph to the rules, however it ends. -/
theorem markComputed_later {graph : Graph} (wf : graph.WellFormed) (position : Nat)
    : (outcome (markComputed position) graph).2.WellFormed
      ∧ graph.Extends (outcome (markComputed position) graph).2 := by
  refine Ends.final (fun final => final.WellFormed ∧ graph.Extends final)
    ((markComputed_ends position graph).mono ?_ ?_)
  · intro _ _ outcome
    rcases outcome with ⟨allocated, rfl⟩
    exact ⟨wf.finished allocated, graph.extends_finished position⟩
  · intro _ _ same
    subst same
    exact ⟨wf, .refl _⟩

end Graph

end LazyTensor
