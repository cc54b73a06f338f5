import LazyTensor.Proofs.Engine.Machine

/-! Plans that do not get stuck. A kernel is called with as many sources as it takes, all of its
element type, and each source is final by then. So a plan stops for want of memory or not at all,
whatever has been computed before and whether or not it is right.
-/

namespace LazyTensor

/-- The failures for want of memory. -/
def EngineError.ofMemory : EngineError → Bool
  | graph (.storage _ (.allocation ..)) => true
  | _ => false

theorem Storage.allocate_eq_error {dtype : DType} {size : Nat} {gives : Nat → Bool}
    {cause : Storage.Error} (failed : Storage.allocate dtype size gives = .error cause)
    : ∃ failure, cause = .allocation dtype size failure := by
  rw [Storage.allocate] at failed
  split at failed
  · next failure _ => exact ⟨failure, (Except.error.inj failed).symm⟩
  · cases failed

namespace Graph

variable {graph : Graph} {position : Nat}

/-- The memory of a node that is there can be had unless there is not enough. -/
theorem allocate_fails {node : Node} (found : graph.nodes[position]? = some node)
    : Ends (allocate position) graph (fun _ _ => True)
        (fun cause _ => (EngineError.graph cause).ofMemory) := by
  simp only [allocate, ends_bind, ends_get, found]
  split
  · trivial
  · split
    · next cause failed =>
        obtain ⟨failure, rfl⟩ := Storage.allocate_eq_error failed
        rfl
    · trivial

/-- A node whose storage was written has memory. -/
theorem isAllocated_stored {node : Node} (found : graph.nodes[position]? = some node)
    (written : Storage)
    : (graph.updateNode position (·.stored written)).isAllocated position = true := by
  rw [isAllocated, storage?, updateNode, Array.getElem?_modify, if_pos rfl, found]
  rfl

/-- A node with memory can be marked. -/
theorem markComputed_of_allocated (allocated : graph.isAllocated position = true)
    : Ends (markComputed position) graph
        (fun _ final => final = graph.updateNode position Node.finished) (fun _ _ => False) := by
  unfold markComputed Build.require
  simp only [ends_bind, ends_get, ends_ite, allocated, if_true]
  rfl

end Graph

-----------------------------------------------------------------------------------------
-- Later states
-----------------------------------------------------------------------------------------

namespace Workspace

/-- A later state that keeps to the rules and in which whatever was computed still is. -/
structure Advances (old new : Workspace) : Prop where
  wellFormed : new.WellFormed
  extends_ : old.Extends new
  computed
    : ∀ id position,
        (old.graph id).isComputed position = true → (new.graph id).isComputed position = true

variable {workspace final : Workspace}

theorem WellFormed.advances (wf : workspace.WellFormed) : workspace.Advances workspace :=
  ⟨wf, .refl _, fun _ _ computed => computed⟩

theorem Advances.trans {first second third : Workspace} (left : first.Advances second)
    (right : second.Advances third)
    : first.Advances third :=
  ⟨right.wellFormed, left.extends_.trans right.extends_,
    fun id position computed => right.computed id position (left.computed id position computed)⟩

/-- A workspace advances if one graph does and the others stay as they are. -/
theorem WellFormed.advances_of_graph (wf : workspace.WellFormed) {id : Nat}
    (others : ∀ other, other ≠ id → final.graph other = workspace.graph other)
    (sound : (final.graph id).WellFormed) (later : (workspace.graph id).Extends (final.graph id))
    (computed
      : ∀ position,
          (workspace.graph id).isComputed position = true →
            (final.graph id).isComputed position = true)
    : workspace.Advances final := by
  refine ⟨?_, ?_, ?_⟩
  · intro other
    by_cases same : other = id
    · subst same
      exact ⟨later.id.trans (wf other).1, sound⟩
    · rw [others other same]
      exact wf other
  · intro other
    by_cases same : other = id
    · subst same
      exact later
    · rw [others other same]
      exact .refl _
  · intro other position
    by_cases same : other = id
    · subst same
      exact computed position
    · rw [others other same]
      exact fun computed => computed

/-- Graphs that are as they were have advanced. -/
theorem WellFormed.advances_of_same (wf : workspace.WellFormed)
    (same : ∀ id, final.graph id = workspace.graph id)
    : workspace.Advances final where
  wellFormed := fun id => same id ▸ wf id
  extends_ := fun id => same id ▸ .refl _
  computed := fun id _ computed => same id ▸ computed

/-- A buffer whose node is computed has final storage of its type. -/
theorem WellFormed.finished? (wf : workspace.WellFormed) {buffer : Buffer}
    (held : workspace.Has buffer)
    (computed : (workspace.graph buffer.graph).isComputed buffer.node = true)
    : ∃ storage, workspace.finished? buffer = some storage ∧ storage.dtype = buffer.dtype := by
  obtain ⟨_, _, node, foundSource, type, _⟩ := held
  have found : (workspace.graph buffer.graph).nodes[buffer.node]? = some node := foundSource
  have nodeWf := (wf buffer.graph).2 _ node found
  have final := computed
  rw [Graph.isComputed, found] at final
  obtain ⟨storage, had⟩ := Option.isSome_iff_exists.mp (nodeWf.computed final)
  refine ⟨storage, ?_, (nodeWf.storage storage had).1.trans type⟩
  rw [Workspace.finished?]
  simp only [computed, if_true]
  rw [Graph.storage?, found, Option.bind_some, had]

end Workspace

-----------------------------------------------------------------------------------------
-- One step
-----------------------------------------------------------------------------------------

/-- What a recorded task reads are buffers of its graph. -/
theorem Task.Recorded.has {workspace : Workspace} (wf : workspace.WellFormed) {task : Task}
    (recorded : task.Recorded workspace) {source : Buffer} (member : source ∈ task.sources)
    : source.graph = task.target.graph
      ∧ workspace.Has source
      ∧ source.dtype = task.target.dtype := by
  obtain ⟨node, operation, found, made, same⟩ := recorded
  rw [congrArg Task.sources same] at member
  obtain ⟨entry, listed, rfl⟩ := List.mem_map.mp member
  have reads := ((wf task.target.graph).2 _ node found).reads operation made entry listed
  have own : ((workspace.graph task.target.graph).sourceView entry).graph = task.target.graph :=
    (wf task.target.graph).1
  refine ⟨own, ?_, reads.sourceView_in.2.trans (congrArg (·.target.dtype) same).symm⟩
  rw [Workspace.Has, own]
  exact reads.sourceView_in.1

/-- A kernel that is called with as many sources as it takes and with storage of its type runs. -/
theorem Executable.invoke_eq_ok {kernel : Executable} {out : Storage} {sources : List Storage}
    (arity : sources.length = kernel.arity)
    (types : ∀ storage ∈ out :: sources, storage.dtype = kernel.dtype) (arith : Arithmetic)
    : ∃ written, kernel.invoke arith out sources = .ok written := by
  have single : (out :: sources).find? (·.dtype != kernel.dtype) = none := by
    refine List.find?_eq_none.mpr fun storage member => ?_
    simp [types storage member]
  rw [invoke, if_pos arity, single]
  exact ⟨_, rfl⟩

/-- A recorded task with a kernel of its element type that takes its sources. -/
structure PlanStep.Callable (workspace : Workspace) (step : PlanStep) : Prop where
  recorded : step.task.Recorded workspace
  dtype : step.kernel.dtype = step.task.target.dtype
  arity : step.kernel.arity = step.task.sources.length

theorem PlanStep.Callable.later {old new : Workspace} (later : old.Extends new)
    (wf : old.WellFormed) {step : PlanStep} (callable : step.Callable old)
    : step.Callable new :=
  ⟨callable.recorded.later later wf, callable.dtype, callable.arity⟩

section

variable {arith : Arithmetic} {workspace : Workspace}

/-- Taking memory for a node that is there fails for want of memory only and leaves the graphs as
they are then.
-/
theorem Execution.allocate_progress (wf : workspace.WellFormed) {id position : Nat} {node : Node}
    (found : (workspace.graph id).nodes[position]? = some node)
    : Ends (onGraph id (Graph.allocate position)) workspace
        (fun storage final =>
          workspace.Advances final
          ∧ (final.graph id).storage? position = some storage
          ∧ storage.dtype = node.dtype
          ∧ storage.size = node.layout.physicalSize)
        (fun cause final => cause.ofMemory ∧ ∀ other, final.graph other = workspace.graph other) := by
  have inside := Workspace.lt_size_of_found found
  have ends := (Graph.allocate_ends position (workspace.graph id)).and (Graph.allocate_fails found)
  refine (onGraph_ends inside ends).mono ?_ ?_
  · rintro storage final ⟨⟨allocates, _⟩, others⟩
    obtain ⟨other, foundOther, type, size⟩ := allocates.storage_fits (wf id).2
    obtain rfl := Option.some.inj (found.symm.trans foundOther)
    refine ⟨wf.advances_of_graph others (allocates.wellFormed (wf id).2) allocates.extends_ ?_,
      allocates.storage?_eq, type, size⟩
    exact fun other computed => (allocates.isComputed_eq other).trans computed
  · rintro _ final ⟨⟨_, rfl, same, short⟩, others⟩
    refine ⟨short, fun other => ?_⟩
    by_cases own : other = id
    · exact own ▸ same
    · exact others other own

/-- A node whose storage was written can be marked. -/
theorem Execution.finish_progress (wf : workspace.WellFormed) {buffer : Buffer} {node : Node}
    (found : (workspace.graph buffer.graph).nodes[buffer.node]? = some node) {written : Storage}
    (type : written.dtype = node.dtype) (size : written.size = node.layout.physicalSize)
    : Ends (onGraph buffer.graph (Graph.markComputed buffer.node))
        (workspace.withStorage buffer written)
        (fun _ final =>
          workspace.Advances final
          ∧ (final.graph buffer.graph).isComputed buffer.node = true)
        (fun _ _ => False) := by
  have inside := Workspace.lt_size_of_found found
  have allocated := Graph.isAllocated_stored found written
  have sound
      : ((workspace.graph buffer.graph).updateNode buffer.node (·.stored written)).WellFormed := by
    refine (wf buffer.graph).2.stored fun other foundOther => ?_
    obtain rfl := Option.some.inj (found.symm.trans foundOther)
    exact ⟨type, size⟩
  refine (onGraph_stored_ends inside (Graph.markComputed_of_allocated allocated)).mono ?_ ?_
  · rintro _ final ⟨marked, others⟩
    refine ⟨wf.advances_of_graph others ?_ ?_ ?_, ?_⟩
    · exact marked ▸ sound.finished allocated
    · rw [marked]
      exact (Graph.extends_stored _ _ written).trans (Graph.extends_finished _ _)
    · intro position computed
      rw [marked]
      exact Graph.isComputed_finished_of ((Graph.isComputed_stored _ _ written position).trans computed)
    · rw [marked]
      exact Graph.isComputed_finished allocated
  · rintro _ _ ⟨⟨_, _, none⟩, _⟩
    exact none

/-- Sources that are computed can be had, by induction on them. -/
theorem PlanStep.exists_sources (wf : workspace.WellFormed) {step : PlanStep}
    (callable : step.Callable workspace)
    (computed
      : ∀ source ∈ step.task.sources,
          (workspace.graph source.graph).isComputed source.node = true)
    : ∃ storages,
        step.sources workspace = .ok storages
        ∧ storages.length = step.kernel.arity
        ∧ ∀ storage ∈ storages, storage.dtype = step.kernel.dtype := by
  have final
      : ∀ source ∈ step.task.sources,
          ∃ storage,
            workspace.finished? source = some storage ∧ storage.dtype = step.kernel.dtype := by
    intro source member
    obtain ⟨_, held, type⟩ := callable.recorded.has wf member
    obtain ⟨storage, had, same⟩ := wf.finished? held (computed source member)
    exact ⟨storage, had, same.trans (type.trans callable.dtype.symm)⟩
  rw [sources, callable.arity]
  generalize step.task.sources = recorded at final
  induction recorded with
  | nil => exact ⟨[], rfl, rfl, by simp⟩
  | cons source rest ih =>
      obtain ⟨first, others⟩ := List.forall_mem_cons.mp final
      obtain ⟨storage, had, type⟩ := first
      obtain ⟨storages, rests, length, types⟩ := ih others
      refine ⟨storage :: storages, ?_, by simp [length], List.forall_mem_cons.mpr ⟨type, types⟩⟩
      rw [List.mapM_cons, had, rests]
      rfl

/-- A step whose sources are computed computes its target unless there is not enough memory. Then
it leaves the graphs as they are.
-/
theorem PlanStep.execute_progress (wf : workspace.WellFormed) {step : PlanStep}
    (callable : step.Callable workspace)
    (computed
      : ∀ source ∈ step.task.sources,
          (workspace.graph source.graph).isComputed source.node = true)
    : Ends (step.execute arith) workspace
        (fun _ final =>
          workspace.Advances final
          ∧ (final.graph step.task.target.graph).isComputed step.task.target.node = true)
        (fun cause final => cause.ofMemory ∧ ∀ other, final.graph other = workspace.graph other) := by
  obtain ⟨storages, had, length, types⟩ := exists_sources wf callable computed
  obtain ⟨node, operation, found, _, same⟩ := callable.recorded
  simp only [execute, ends_bind, ends_get]
  split
  · next done => exact ⟨wf.advances, done⟩
  · simp only [ends_bind, ends_liftExcept, had]
    refine (Execution.allocate_progress wf found).mono ?_ (fun _ _ short => short)
    rintro out middle ⟨advances, _, type, size⟩
    have own : out.dtype = step.kernel.dtype := by
      rw [callable.dtype, congrArg (·.target.dtype) same, type]
      rfl
    obtain ⟨written, ran⟩ :=
      Executable.invoke_eq_ok length (List.forall_mem_cons.mpr ⟨own, types⟩) arith
    obtain ⟨typeKept, sizeKept⟩ := Executable.shape_of_invoke ran
    obtain ⟨next, foundNext, stays⟩ := (advances.extends_ _).nodes _ node found
    simp only [ran, ends_modify]
    refine (Execution.finish_progress advances.wellFormed foundNext ?_ ?_).mono ?_
      (fun _ _ => False.elim)
    · exact typeKept.trans (type.trans stays.dtype.symm)
    · exact sizeKept.trans (size.trans (congrArg Layout.physicalSize stays.layout.symm))
    · exact fun _ final ends => ⟨advances.trans ends.1, ends.2⟩

-----------------------------------------------------------------------------------------
-- Whole plans
-----------------------------------------------------------------------------------------

/-- Every source of a step is computed or the target of an earlier step. -/
def Plan.Ordered (workspace : Workspace) (plan : Plan) : Prop :=
  ∀ before step after, plan = before ++ step :: after →
    ∀ source ∈ step.task.sources,
      (workspace.graph source.graph).isComputed source.node = true
      ∨ ∃ earlier ∈ before,
          earlier.task.target.graph = source.graph ∧ earlier.task.target.node = source.node

/-- A plan in order computes all its targets unless there is not enough memory, by induction on
the plan.
-/
theorem Plan.run_progress (wf : workspace.WellFormed) {plan : Plan}
    (callable : ∀ step ∈ plan, step.Callable workspace) (ordered : plan.Ordered workspace)
    : Ends (plan.run arith) workspace (fun _ final => workspace.Advances final)
        (fun cause _ => cause.ofMemory) := by
  induction plan generalizing workspace with
  | nil => exact wf.advances
  | cons step rest ih =>
      obtain ⟨first, others⟩ := List.forall_mem_cons.mp callable
      have computed (source : Buffer) (member : source ∈ step.task.sources)
          : (workspace.graph source.graph).isComputed source.node = true := by
        rcases ordered [] step rest rfl source member with final | ⟨_, none, _⟩
        · exact final
        · cases none
      simp only [run, ends_bind]
      refine (step.execute_progress wf first computed).mono ?_ (fun _ _ short => short.1)
      rintro _ middle ⟨advances, target⟩
      have next : ∀ step ∈ rest, step.Callable middle :=
        fun other member => (others other member).later advances.extends_ wf
      refine (ih advances.wellFormed next ?_).mono ?_ (fun _ _ short => short)
      · intro before other after split source member
        rcases ordered (step :: before) other after (by rw [split]; rfl) source member with
          final | ⟨earlier, listed, sameGraph, sameNode⟩
        · exact Or.inl (advances.computed _ _ final)
        · rcases List.mem_cons.mp listed with rfl | inside
          · exact Or.inl (sameGraph ▸ sameNode ▸ target)
          · exact Or.inr ⟨earlier, inside, sameGraph, sameNode⟩
      · exact fun _ _ onward => advances.trans onward

end

end LazyTensor
