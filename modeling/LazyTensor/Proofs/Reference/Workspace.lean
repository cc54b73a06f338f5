import LazyTensor.Proofs.Reference.Graph
import LazyTensor.Proofs.Workspace.WellFormed

/-! Workspaces where whatever is computed shows its array. They stay so when one of their graphs
takes memory, stores elements that are not final, or marks what shows its array; and whatever was
computed stays computed.
-/

namespace LazyTensor

namespace Graph

/-- A graph that keeps to the rules and where whatever is computed shows its array. -/
structure Right (arith : Arithmetic) (given : Nat → Array Pattern) (graph : Graph) : Prop where
  wellFormed : graph.WellFormed
  computes : graph.Computes arith given

/-- A later state of a graph that is right and in which what was computed still is. -/
structure LeadsTo (arith : Arithmetic) (given : Nat → Array Pattern) (old new : Graph) : Prop
    where
  extends_ : old.Extends new
  computed : ∀ position, old.isComputed position = true → new.isComputed position = true
  right : new.Right arith given

variable {arith : Arithmetic} {given : Nat → Array Pattern} {graph : Graph}

theorem Right.refl (right : graph.Right arith given) : graph.LeadsTo arith given graph :=
  ⟨.refl graph, fun _ final => final, right⟩

theorem LeadsTo.trans {first second third : Graph} (left : first.LeadsTo arith given second)
    (right : second.LeadsTo arith given third)
    : first.LeadsTo arith given third :=
  ⟨left.extends_.trans right.extends_,
    fun position final => right.computed position (left.computed position final), right.right⟩

theorem LeadsTo.reference_eq {old new : Graph} (leads : old.LeadsTo arith given new)
    (right : old.Right arith given) {position : Nat} {node : Node}
    (found : old.nodes[position]? = some node)
    : new.reference arith given position = old.reference arith given position :=
  leads.extends_.reference_eq right.wellFormed leads.right.wellFormed
    (Array.getElem?_eq_some_iff.mp found).1 fun _ _ => rfl

/-- Storage does not decide what is computed. -/
theorem isComputed_stored (graph : Graph) (position : Nat) (storage : Storage) (other : Nat)
    : (graph.updateNode position (·.stored storage)).isComputed other
      = graph.isComputed other := by
  simp only [isComputed, updateNode, Array.getElem?_modify]
  by_cases same : position = other
  · rw [if_pos same]
    cases graph.nodes[other]? <;> rfl
  · rw [if_neg same]

/-- What is computed stays so when a node is marked. -/
theorem isComputed_finished_of {position other : Nat} (final : graph.isComputed other = true)
    : (graph.updateNode position Node.finished).isComputed other = true := by
  simp only [isComputed, updateNode, Array.getElem?_modify] at final ⊢
  by_cases same : position = other
  · rw [if_pos same]
    cases found : graph.nodes[other]? with
    | none => rwa [found] at final
    | some node => rfl
  · rwa [if_neg same]

theorem Allocates.isComputed_eq {final : Graph} {position : Nat} {storage : Storage}
    (allocates : graph.Allocates position storage final) (other : Nat)
    : final.isComputed other = graph.isComputed other := by
  cases allocates with
  | kept => rfl
  | taken => exact graph.isComputed_stored position storage other

theorem Right.allocates {final : Graph} (right : graph.Right arith given) {position : Nat}
    {storage : Storage} (allocates : graph.Allocates position storage final)
    : graph.LeadsTo arith given final :=
  ⟨allocates.extends_, fun other => (allocates.isComputed_eq other).trans,
    allocates.wellFormed right.wellFormed,
    right.computes.allocates right.wellFormed allocates⟩

/-- A node that is not computed may get any storage of its type and size. If this shows the array
of the node, the node may then be marked.
-/
theorem Right.filled (right : graph.Right arith given) {position : Nat} {node : Node}
    (found : graph.nodes[position]? = some node) (pending : graph.isComputed position = false)
    {storage : Storage} (type : storage.dtype = node.dtype)
    (size : storage.size = node.layout.physicalSize)
    (shows
      : node.layout.Shows storage.cells
          ⟨node.layout.shape, graph.reference arith given position⟩)
    : graph.LeadsTo arith given (graph.updateNode position (·.stored storage))
      ∧ graph.LeadsTo arith given
          ((graph.updateNode position (·.stored storage)).updateNode position Node.finished) := by
  have fit
      : ∀ other, graph.nodes[position]? = some other →
          storage.dtype = other.dtype ∧ storage.size = other.layout.physicalSize := by
    intro other foundOther
    obtain rfl := Option.some.inj (found.symm.trans foundOther)
    exact ⟨type, size⟩
  have stored : graph.LeadsTo arith given (graph.updateNode position (·.stored storage)) :=
    ⟨graph.extends_stored position storage,
      fun other => (graph.isComputed_stored position storage other).trans,
      right.wellFormed.stored fit, right.computes.stored right.wellFormed fit pending⟩
  have foundStored
      : (graph.updateNode position (·.stored storage)).nodes[position]?
        = some (node.stored storage) := by
    rw [updateNode, Array.getElem?_modify, if_pos rfl, found]
    rfl
  have allocated
      : (graph.updateNode position (·.stored storage)).isAllocated position = true := by
    rw [isAllocated, storage?, foundStored]
    rfl
  refine ⟨stored, stored.trans ⟨extends_finished _ position,
    fun _ => isComputed_finished_of, stored.right.wellFormed.finished allocated, ?_⟩⟩
  refine stored.right.computes.finished stored.right.wellFormed allocated ?_
  intro other own foundOther had
  obtain rfl := Option.some.inj (foundStored.symm.trans foundOther)
  obtain rfl := Option.some.inj had
  rw [stored.reference_eq right found]
  exact shows

theorem isComputed_finished {position : Nat} (allocated : graph.isAllocated position = true)
    : (graph.updateNode position Node.finished).isComputed position = true := by
  obtain ⟨storage, had⟩ := Option.isSome_iff_exists.mp allocated
  obtain ⟨node, found, _⟩ := Option.bind_eq_some_iff.mp had
  rw [isComputed, updateNode, Array.getElem?_modify, if_pos rfl, found]
  rfl

end Graph

namespace Workspace

/-- Graphs that bear their numbers, keep to the rules and have nothing wrong computed. -/
structure Right (arith : Arithmetic) (given : Nat → Nat → Array Pattern) (workspace : Workspace)
    : Prop where
  wellFormed : workspace.WellFormed
  computes : ∀ id, (workspace.graph id).Computes arith (given id)

/-- A later state of a workspace that is right and in which what was computed still is. -/
structure LeadsTo (arith : Arithmetic) (given : Nat → Nat → Array Pattern) (old new : Workspace)
    : Prop where
  right : new.Right arith given
  graph : ∀ id, (old.graph id).LeadsTo arith (given id) (new.graph id)

variable {arith : Arithmetic} {given : Nat → Nat → Array Pattern} {workspace final : Workspace}

theorem LeadsTo.extends_ {old new : Workspace} (leads : old.LeadsTo arith given new)
    : old.Extends new :=
  fun id => (leads.graph id).extends_

theorem Right.graph (right : workspace.Right arith given) (id : Nat)
    : (workspace.graph id).Right arith (given id) :=
  ⟨(right.wellFormed id).2, right.computes id⟩

theorem Right.refl (right : workspace.Right arith given) : workspace.LeadsTo arith given workspace :=
  ⟨right, fun id => (right.graph id).refl⟩

theorem LeadsTo.trans {first second third : Workspace} (left : first.LeadsTo arith given second)
    (right : second.LeadsTo arith given third)
    : first.LeadsTo arith given third :=
  ⟨right.right, fun id => (left.graph id).trans (right.graph id)⟩

theorem Right.of_graphs (right : workspace.Right arith given)
    (leads : ∀ id, (workspace.graph id).LeadsTo arith (given id) (final.graph id))
    : workspace.LeadsTo arith given final := by
  refine ⟨⟨?_, fun id => (leads id).right.computes⟩, leads⟩
  intro id
  exact ⟨(leads id).extends_.id.trans (right.wellFormed id).1, (leads id).right.wellFormed⟩

/-- The final contents of a buffer's node are of its type and as many as stand behind it, and they show
its array.
-/
theorem Right.finished_shows (right : workspace.Right arith given) {buffer : Buffer}
    (held : workspace.Has buffer) {storage : Storage}
    (final : workspace.finished? buffer = some storage)
    : storage.dtype = buffer.dtype
      ∧ storage.size = buffer.layout.physicalSize
      ∧ buffer.layout.Shows storage.cells
          ((workspace.graph buffer.graph).shown arith (given buffer.graph) buffer.source) := by
  rw [finished?] at final
  split at final
  · next computed =>
      have wf := (right.graph buffer.graph).wellFormed
      have shows := (right.computes buffer.graph).source wf held.2 computed final
      obtain ⟨_, node, found, type, size⟩ := held.2
      have own : node.storage = some storage := by
        have stored := final
        rwa [Graph.storage?, show buffer.node = buffer.source.node from rfl, found,
          Option.bind_some] at stored
      obtain ⟨ownType, ownSize⟩ := (wf _ node found).storage storage own
      exact ⟨ownType.trans type, ownSize.trans size.symm, shows⟩
  · cases final

/-- A workspace leads on if one graph does and the others stay as they are. -/
theorem Right.of_graph (right : workspace.Right arith given) {id : Nat}
    (others : ∀ other, other ≠ id → final.graph other = workspace.graph other)
    (leads : (workspace.graph id).LeadsTo arith (given id) (final.graph id))
    : workspace.LeadsTo arith given final := by
  refine right.of_graphs fun other => ?_
  by_cases same : other = id
  · rw [same]
    exact leads
  · rw [others other same]
    exact (right.graph other).refl

/-- Taking memory leads a workspace on, however it ends. -/
theorem Right.allocate (right : workspace.Right arith given) (id position : Nat)
    : workspace.LeadsTo arith given (workspace.build id (Graph.allocate position)).2 := by
  refine right.of_graphs (forall_graph_build
    (motive := fun id graph => (workspace.graph id).LeadsTo arith (given id) graph)
    (fun other => (right.graph other).refl) ?_)
  refine ((Graph.allocate_ends position (workspace.graph id)).mono ?_ ?_).final _
  · exact fun _ _ allocates => (right.graph id).allocates allocates
  · intro _ _ same
    subst same
    exact (right.graph id).refl

/-- A workspace leads on when the host gives other amounts of memory. -/
theorem Right.serve (right : workspace.Right arith given) (id : Nat)
    (memory : (node bytes : Nat) → Bool)
    : workspace.LeadsTo arith given (workspace.build id (Graph.serve memory)).2 := by
  refine right.of_graphs (forall_graph_build
    (motive := fun id graph => (workspace.graph id).LeadsTo arith (given id) graph)
    (fun other => (right.graph other).refl) ?_)
  obtain ⟨wf, computes⟩ := right.graph id
  obtain ⟨nextWf, later⟩ := Graph.serve_later wf memory
  refine ⟨later, fun _ final => final, nextWf, ?_⟩
  exact computes.later wf nextWf later (fun _ _ => rfl) fun _ _ _ found _ _ => Or.inl found

end Workspace

end LazyTensor
