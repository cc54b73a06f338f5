import LazyTensor.Proofs.Engine.Lifecycle
import LazyTensor.Proofs.Engine.Settling
import LazyTensor.Proofs.Workspace.Appending

/-! Memory that is taken by hand. Nodes get memory in three ways: with data from outside, from an
engine, and by hand. Only memory that was taken by hand is left with a node that is not computed, and
such memory is zeroed.
-/

namespace LazyTensor.Workspace

/-- The places of nodes for which memory was taken by hand. Of the nodes that are not computed these
have zeroed memory and the others have none.
-/
structure Reserves (workspace : Workspace) (places : List (Nat × Nat)) : Prop where
  present : ∀ id position, (id, position) ∈ places → position < (workspace.graph id).size
  waiting
    : ∀ id position node,
        (workspace.graph id).nodes[position]? = some node →
          node.computed = false →
            node.storage = if (id, position) ∈ places then some node.zeroed else none

namespace Reserves

variable {workspace final : Workspace} {places : List (Nat × Nat)}

theorem start : Workspace.start.Reserves [] where
  present := by simp
  waiting := by
    intro id position node found
    rw [graph_start] at found
    simp [Graph.empty] at found

theorem addGraph (reserves : workspace.Reserves places) : workspace.addGraph.Reserves places where
  present := by
    intro id
    rw [graph_addGraph]
    exact reserves.present id
  waiting := by
    intro id
    rw [graph_addGraph]
    exact reserves.waiting id

/-- Memory is reserved whatever the host gives from now on. -/
theorem serve (reserves : workspace.Reserves places) (id : Nat) (memory : (node bytes : Nat) → Bool)
    : (workspace.build id (Graph.serve memory)).2.Reserves places := by
  have same : ∀ other,
      ((workspace.build id (Graph.serve memory)).2.graph other).nodes = (workspace.graph other).nodes :=
    forall_graph_build (motive := fun other graph => graph.nodes = (workspace.graph other).nodes)
      (fun _ => rfl) rfl
  constructor
  · intro other position member
    rw [Graph.size, same]
    exact reserves.present other position member
  · intro other position node found
    rw [same] at found
    exact reserves.waiting other position node found

/-- Nodes that are appended were not there when memory was taken, and have none. -/
theorem appends (reserves : workspace.Reserves places) {id count : Nat}
    (appends : workspace.Appends id count final)
    : final.Reserves places where
  present := by
    intro other position member
    have inside := reserves.present other position member
    by_cases own : other = id
    · subst own
      rw [appends.graph.size_eq]
      omega
    · rw [appends.others other own]
      exact inside
  waiting := by
    intro other position node found waits
    by_cases own : other = id
    · subst own
      obtain ⟨added, _, nodes⟩ := appends.graph.nodes
      rcases Nat.lt_or_ge position (workspace.graph other).size with before | behind
      · rw [nodes, Array.getElem?_append_left before] at found
        exact reserves.waiting other position node found waits
      · rw [if_neg fun member => behind.not_gt (reserves.present other position member)]
        exact appends.graph.blank position node behind found waits
    · rw [appends.others other own] at found
      exact reserves.waiting other position node found waits

/-- What engines leave is reserved as before. -/
theorem settles (reserves : workspace.Reserves places) (extends_ : workspace.Extends final)
    (settles : workspace.Settles final)
    : final.Reserves places where
  present := fun id position member =>
    (extends_ id).lt_size (reserves.present id position member)
  waiting := by
    intro id position node found waits
    have pending : (final.graph id).isComputed position = false := by
      rw [Graph.isComputed, found]
      exact waits
    rw [settles id position pending] at found
    exact reserves.waiting id position node found waits

/-- The place of a node may be named where the node is computed or its memory is zeroed, if the other
nodes are as they were.
-/
theorem named (reserves : workspace.Reserves places) {buffer : Buffer} {node : Node}
    (found : (final.graph buffer.graph).nodes[buffer.node]? = some node)
    (zeroed : node.computed = false → node.storage = some node.zeroed)
    (others : workspace.SameOutside buffer.At final)
    : final.Reserves ((buffer.graph, buffer.node) :: places) := by
  constructor
  · intro id position member
    by_cases own : buffer.At id position
    · obtain ⟨rfl, rfl⟩ := own
      exact (Array.getElem?_eq_some_iff.mp found).1
    · have old := (List.mem_cons.mp member).resolve_left fun same =>
        own ⟨(Prod.mk.inj same).1.symm, (Prod.mk.inj same).2.symm⟩
      have before := Array.getElem?_eq_getElem (reserves.present id position old)
      exact (Array.getElem?_eq_some_iff.mp ((others id position own).trans before)).1
  · intro id position waiting foundWaiting waits
    by_cases own : buffer.At id position
    · obtain ⟨rfl, rfl⟩ := own
      obtain rfl := Option.some.inj (found.symm.trans foundWaiting)
      rw [if_pos List.mem_cons_self]
      exact zeroed waits
    · have different : (id, position) ≠ (buffer.graph, buffer.node) := fun same =>
        own ⟨(Prod.mk.inj same).1.symm, (Prod.mk.inj same).2.symm⟩
      rw [others id position own] at foundWaiting
      simpa only [List.mem_cons, different, false_or]
        using reserves.waiting id position waiting foundWaiting waits

/-- Memory that is taken is zeroed, also when it was taken before. -/
theorem allocate (reserves : workspace.Reserves places) (buffer : Buffer)
    : match workspace.build buffer.graph (Graph.allocate buffer.node) with
      | (.ok _, final) => final.Reserves ((buffer.graph, buffer.node) :: places)
      | (.error _, final) => final = workspace := by
  have ends := Graph.allocate_ends buffer.node (workspace.graph buffer.graph)
  have result := workspace.build_fst buffer.graph (Graph.allocate buffer.node)
  have others
      : workspace.SameOutside buffer.At
          (workspace.build buffer.graph (Graph.allocate buffer.node)).2 :=
    sameOutside_build Graph.nodes_allocate_of_ne
  have own := workspace.graph_build buffer.graph (Graph.allocate buffer.node) buffer.graph
  rcases built : workspace.build buffer.graph (Graph.allocate buffer.node) with
    ⟨cause | storage, final⟩
  · have same := ends.of_error (result.symm.trans (congrArg Prod.fst built))
    exact (congrArg Prod.snd built).symm.trans (build_unchanged same)
  · have allocates := ends.of_ok (result.symm.trans (congrArg Prod.fst built))
    rw [built] at others own
    generalize (outcome (Graph.allocate buffer.node) (workspace.graph buffer.graph)).2 = graph
      at allocates own
    cases allocates with
    | kept node found had =>
        rw [ite_self] at own
        refine reserves.named (own ▸ found) (fun waits => ?_) others
        -- Memory that a node has before it is computed was taken by hand.
        have known := reserves.waiting _ _ node found waits
        split at known
        · exact known
        · rw [had] at known
          cases known
    | taken node found had zeroed =>
        subst zeroed
        rw [if_pos ⟨rfl, lt_size_of_found found⟩] at own
        have taken
            : (final.graph buffer.graph).nodes[buffer.node]? = some (node.stored node.zeroed) := by
          rw [own, Graph.updateNode, Array.getElem?_modify, if_pos rfl, found]
          rfl
        exact reserves.named taken (fun _ => rfl) others

end Reserves

end LazyTensor.Workspace
