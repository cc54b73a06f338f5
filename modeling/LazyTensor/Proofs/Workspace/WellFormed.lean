import LazyTensor.Proofs.Graph.Growth
import LazyTensor.Proofs.Graph.Memory
import LazyTensor.Workspace

/-! Workspaces that keep to the rules: each graph bears the number of its place and keeps to the
rules for graphs. A step on one graph leaves the others as they are.
-/

namespace LazyTensor

namespace Workspace

/-- All graphs bear their numbers and keep to the rules. A graph that is not there is empty. -/
def WellFormed (workspace : Workspace) : Prop :=
  ∀ id, (workspace.graph id).id = id ∧ (workspace.graph id).WellFormed

/-- A buffer of one of the graphs. -/
def Has (workspace : Workspace) (buffer : Buffer) : Prop :=
  buffer.In (workspace.graph buffer.graph)

/-- Every graph is a later state of what it was. -/
def Extends (old new : Workspace) : Prop := ∀ id, (old.graph id).Extends (new.graph id)

theorem Extends.has {old new : Workspace} (later : old.Extends new) {buffer : Buffer}
    (held : old.Has buffer)
    : new.Has buffer :=
  (later buffer.graph).buffer held

theorem Extends.refl (workspace : Workspace) : workspace.Extends workspace :=
  fun id => .refl (workspace.graph id)

theorem Extends.trans {first second third : Workspace} (left : first.Extends second)
    (right : second.Extends third)
    : first.Extends third :=
  fun id => (left id).trans (right id)

theorem lt_size_of_found {workspace : Workspace} {id position : Nat} {node : Node}
    (found : (workspace.graph id).nodes[position]? = some node)
    : id < workspace.size := by
  by_contra outside
  rw [graph, Array.getD_eq_getD_getElem?, Array.getElem?_eq_none (Nat.le_of_not_lt outside)]
    at found
  simp [Graph.empty] at found

theorem graph_start (id : Nat) : start.graph id = .empty id := by
  cases id <;> rfl

/-- A graph that is added is as empty as it was before. -/
theorem graph_addGraph (workspace : Workspace) (id : Nat)
    : workspace.addGraph.graph id = workspace.graph id := by
  simp only [graph, addGraph, Array.getD_eq_getD_getElem?, Array.getElem?_push, size]
  split
  · next last =>
      rw [last, Array.getElem?_eq_none (Nat.le_refl _)]
      rfl
  · rfl

/-- A step on a graph leaves that graph as it ends and the others as they were. -/
theorem graph_build {α : Type} (workspace : Workspace) (id : Nat) (step : Build α) (other : Nat)
    : (workspace.build id step).2.graph other
      = if other = id ∧ id < workspace.size then (outcome step (workspace.graph id)).2
        else workspace.graph other := by
  simp only [build, outcome, graph, size, Array.getD_eq_getD_getElem?,
    Array.getElem?_setIfInBounds, Array.size_setIfInBounds]
  by_cases same : id = other
  · subst same
    by_cases inside : id < workspace.graphs.size
    · simp [inside]
    · simp [inside]
  · simp [same, Ne.symm same]

theorem build_fst {α : Type} (workspace : Workspace) (id : Nat) (step : Build α)
    : (workspace.build id step).1 = (outcome step (workspace.graph id)).1 :=
  rfl

/-- Storage that is written changes one node of one graph. -/
theorem graph_withStorage (workspace : Workspace) (buffer : Buffer) (storage : Storage)
    (other : Nat)
    : (workspace.withStorage buffer storage).graph other
      = if other = buffer.graph ∧ buffer.graph < workspace.size then
          (workspace.graph other).updateNode buffer.node (·.stored storage)
        else workspace.graph other := by
  simp only [withStorage, graph, size, Array.getD_eq_getD_getElem?, Array.getElem?_modify]
  by_cases same : buffer.graph = other
  · subst same
    by_cases inside : buffer.graph < workspace.graphs.size
    · simp [inside]
      rfl
    · simp [inside]
  · simp [same, Ne.symm same]

/-- What holds of the changed graph and of all others holds of every graph. -/
theorem forall_graph_build {α : Type} {workspace : Workspace} {id : Nat} {step : Build α}
    {motive : Nat → Graph → Prop} (others : ∀ other, motive other (workspace.graph other))
    (changed : motive id (outcome step (workspace.graph id)).2)
    : ∀ other, motive other ((workspace.build id step).2.graph other) := by
  intro other
  rw [graph_build]
  split
  · next same => exact same.1 ▸ changed
  · exact others other

namespace WellFormed

theorem start : Workspace.start.WellFormed := by
  intro id
  rw [graph_start]
  exact ⟨rfl, Graph.empty_wellFormed id⟩

theorem addGraph {workspace : Workspace} (wf : workspace.WellFormed)
    : workspace.addGraph.WellFormed := by
  intro id
  rw [graph_addGraph]
  exact wf id

/-- A step that leads its graph to a later state that keeps to the rules does so for the
workspace.
-/
theorem build {α : Type} {workspace : Workspace} (wf : workspace.WellFormed) {id : Nat}
    {step : Build α}
    (ends
      : (outcome step (workspace.graph id)).2.WellFormed
        ∧ (workspace.graph id).Extends (outcome step (workspace.graph id)).2)
    : (workspace.build id step).2.WellFormed ∧ workspace.Extends (workspace.build id step).2 := by
  constructor
  · refine forall_graph_build (motive := fun id graph => graph.id = id ∧ graph.WellFormed) wf ?_
    exact ⟨ends.2.id.trans (wf id).1, ends.1⟩
  · exact forall_graph_build (motive := fun other graph => (workspace.graph other).Extends graph)
      (fun other => .refl _) ends.2

/-- Storage of the type and size of its node keeps a workspace to the rules. -/
theorem withStorage {workspace : Workspace} (wf : workspace.WellFormed) {buffer : Buffer}
    {storage : Storage}
    (fit
      : ∀ node, (workspace.graph buffer.graph).nodes[buffer.node]? = some node →
          storage.dtype = node.dtype ∧ storage.size = node.layout.physicalSize)
    : (workspace.withStorage buffer storage).WellFormed
      ∧ workspace.Extends (workspace.withStorage buffer storage) := by
  constructor
  · intro id
    rw [graph_withStorage]
    split
    · next same =>
        obtain ⟨rfl, _⟩ := same
        exact ⟨(wf _).1, (wf _).2.stored fit⟩
    · exact wf id
  · intro id
    rw [graph_withStorage]
    split
    · exact Graph.extends_stored _ _ storage
    · exact .refl _

end WellFormed

end Workspace

end LazyTensor
