import LazyTensor.Proofs.Engine.Callers

/-! What a plan leaves alone. Taking memory, filling it and marking it as final touch one node, the
target of the step. So all nodes but the targets of a plan are as they were before it ran, wherever
it stopped and whatever its kernels are.
-/

namespace LazyTensor

/-- A buffer shows the node at a place. -/
def Buffer.At (buffer : Buffer) (id position : Nat) : Prop :=
  buffer.graph = id ∧ buffer.node = position

/-- A node is the target of one of the steps. -/
def Plan.Targets (plan : Plan) (id position : Nat) : Prop :=
  ∃ step ∈ plan, step.task.target.At id position

namespace Graph

variable {graph : Graph} {position other : Nat}

/-- Taking memory for a node leaves the others as they are, however it ends. -/
theorem nodes_allocate_of_ne (different : other ≠ position)
    : (outcome (allocate position) graph).2.nodes[other]? = graph.nodes[other]? := by
  refine Ends.final (fun final : Graph => final.nodes[other]? = graph.nodes[other]?)
    ((allocate_ends position graph).mono ?_ ?_)
  · intro storage final allocates
    cases allocates with
    | kept => rfl
    | taken => rw [updateNode, Array.getElem?_modify, if_neg different.symm]
  · exact fun _ _ same => same ▸ rfl

/-- Marking a node leaves the others as they are, however it ends. -/
theorem nodes_markComputed_of_ne (different : other ≠ position)
    : (outcome (markComputed position) graph).2.nodes[other]? = graph.nodes[other]? := by
  refine Ends.final (fun final : Graph => final.nodes[other]? = graph.nodes[other]?)
    ((markComputed_ends position graph).mono ?_ ?_)
  · rintro _ _ ⟨_, rfl⟩
    rw [updateNode, Array.getElem?_modify, if_neg different.symm]
  · exact fun _ _ same => same ▸ rfl

end Graph

namespace Workspace

/-- All nodes but those touched are as they were, and no others have come. -/
def SameOutside (touched : Nat → Nat → Prop) (old new : Workspace) : Prop :=
  ∀ id position : Nat, ¬ touched id position →
    (new.graph id).nodes[position]? = (old.graph id).nodes[position]?

variable {touched more : Nat → Nat → Prop} {workspace : Workspace}

theorem SameOutside.refl (workspace : Workspace) : SameOutside touched workspace workspace :=
  fun _ _ _ => rfl

theorem SameOutside.trans {first second third : Workspace} (left : SameOutside touched first second)
    (right : SameOutside touched second third)
    : SameOutside touched first third :=
  fun id position outside => (right id position outside).trans (left id position outside)

theorem SameOutside.mono {old new : Workspace} (same : SameOutside touched old new)
    (wider : ∀ id position, touched id position → more id position)
    : SameOutside more old new :=
  fun id position outside => same id position fun inside => outside (wider id position inside)

/-- A step on one graph that leaves all nodes but one as they are does so in the workspace. -/
theorem sameOutside_build {α : Type} {buffer : Buffer} {step : Build α}
    (others
      : ∀ {graph : Graph} {other : Nat}, other ≠ buffer.node →
          (outcome step graph).2.nodes[other]? = graph.nodes[other]?)
    : SameOutside buffer.At workspace (workspace.build buffer.graph step).2 := by
  intro id position outside
  rw [graph_build]
  split
  · next same =>
      obtain ⟨rfl, _⟩ := same
      exact others fun own => outside ⟨rfl, own.symm⟩
  · rfl

theorem sameOutside_withStorage (buffer : Buffer) (storage : Storage)
    : SameOutside buffer.At workspace (workspace.withStorage buffer storage) := by
  intro id position outside
  rw [graph_withStorage]
  split
  · next same =>
      obtain ⟨rfl, _⟩ := same
      rw [Graph.updateNode, Array.getElem?_modify, if_neg fun own => outside ⟨rfl, own⟩]
  · rfl

end Workspace

open Workspace

variable {arith : Arithmetic}

/-- A step of a plan touches its target only, however it ends. -/
theorem PlanStep.execute_sameOutside (step : PlanStep) (workspace : Workspace)
    : Ends (step.execute arith) workspace
        (fun _ final => SameOutside step.task.target.At workspace final)
        (fun _ final => SameOutside step.task.target.At workspace final) := by
  let target := step.task.target
  have onGraph {α : Type} (change : Build α) (middle : Workspace)
      (others
        : ∀ {graph : Graph} {other : Nat}, other ≠ target.node →
            (outcome change graph).2.nodes[other]? = graph.nodes[other]?)
      : Ends (Execution.onGraph target.graph change) middle
          (fun _ final => SameOutside target.At middle final)
          (fun _ final => SameOutside target.At middle final) :=
    (Execution.onGraph_final target.graph change middle).mono
      (fun _ _ same => same ▸ sameOutside_build others)
      (fun _ _ same => same ▸ sameOutside_build others)
  simp only [execute, ends_bind, ends_get]
  split
  · exact .refl workspace
  · simp only [ends_bind, ends_liftExcept]
    split
    · refine (onGraph _ workspace Graph.nodes_allocate_of_ne).mono ?_ (fun _ _ same => same)
      intro out middle taken
      split
      · next written _ =>
          have filled := taken.trans (sameOutside_withStorage target written)
          exact (onGraph _ _ Graph.nodes_markComputed_of_ne).mono
            (fun _ _ => filled.trans) (fun _ _ => filled.trans)
      · exact taken
    · exact .refl workspace

/-- A plan touches its targets only, wherever it stops, by induction on the plan. -/
theorem Plan.run_sameOutside (plan : Plan) (workspace : Workspace)
    : Ends (plan.run arith) workspace (fun _ final => SameOutside plan.Targets workspace final)
        (fun _ final => SameOutside plan.Targets workspace final) := by
  induction plan generalizing workspace with
  | nil => exact .refl workspace
  | cons step rest ih =>
      have own (id position : Nat) (inside : step.task.target.At id position)
          : Plan.Targets (step :: rest) id position :=
        ⟨step, List.mem_cons_self, inside⟩
      have behind (id position : Nat) (inside : Plan.Targets rest id position)
          : Plan.Targets (step :: rest) id position := by
        obtain ⟨other, member, at_⟩ := inside
        exact ⟨other, List.mem_cons_of_mem _ member, at_⟩
      simp only [run, ends_bind]
      refine (step.execute_sameOutside workspace).mono ?_ (fun _ _ same => same.mono own)
      intro _ middle first
      exact (ih middle).mono (fun _ _ later => (first.mono own).trans (later.mono behind))
        fun _ _ later => (first.mono own).trans (later.mono behind)

end LazyTensor
