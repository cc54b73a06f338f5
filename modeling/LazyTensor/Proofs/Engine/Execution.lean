import LazyTensor.Engine.Plan
import LazyTensor.Proofs.Engine.Cache
import LazyTensor.Proofs.Reference.Workspace

/-! Plans that run. A step passes over a target that is computed, needs final sources, and fills
the target with the array of its node before it marks it. So whatever is computed stays right when
a plan runs, at whatever time it was made and wherever it stops.
-/

namespace LazyTensor

open Kernel

/-- A task that says what its node records. -/
def Task.Recorded (workspace : Workspace) (task : Task) : Prop :=
  ∃ node operation,
    (workspace.graph task.target.graph).nodes[task.target.node]? = some node
    ∧ node.producer = some operation
    ∧ task = (workspace.graph task.target.graph).task task.target.node node operation

/-- A task that is recorded stays recorded. -/
theorem Task.Recorded.later {old new : Workspace} (later : old.Extends new)
    (wf : old.WellFormed) {task : Task} (recorded : task.Recorded old)
    : task.Recorded new := by
  obtain ⟨node, operation, found, made, same⟩ := recorded
  have graphLater := later task.target.graph
  obtain ⟨next, foundNext, stays⟩ := graphLater.nodes _ node found
  refine ⟨next, operation, foundNext, stays.producer.trans made, same.trans ?_⟩
  exact (graphLater.task_eq ((wf task.target.graph).2 _ node found) made stays).symm

theorem Task.Recorded.fits {workspace : Workspace} (wf : workspace.WellFormed) {task : Task}
    (recorded : task.Recorded workspace)
    : ∃ program, task.Fits program := by
  obtain ⟨node, operation, found, made, same⟩ := recorded
  obtain ⟨program, fits⟩ := (wf task.target.graph).2.task_fits found made
  exact ⟨program, same ▸ fits⟩

-----------------------------------------------------------------------------------------
-- One step
-----------------------------------------------------------------------------------------

/-- A step on a graph that is there ends as it ends on the graph and leaves the others alone. If
it fails, then for the cause for which it fails on the graph.
-/
theorem Execution.onGraph_ends {α : Type} {id : Nat} {step : Build α} {workspace : Workspace}
    (inside : id < workspace.size) {done : α → Graph → Prop} {failed : GraphError → Graph → Prop}
    (ends : Ends step (workspace.graph id) done failed)
    : Ends (onGraph id step) workspace
        (fun value final =>
          done value (final.graph id)
          ∧ ∀ other, other ≠ id → final.graph other = workspace.graph other)
        (fun error final =>
          (∃ cause, error = .graph cause ∧ failed cause (final.graph id))
          ∧ ∀ other, other ≠ id → final.graph other = workspace.graph other) := by
  have own : (workspace.build id step).2.graph id = (outcome step (workspace.graph id)).2 := by
    rw [Workspace.graph_build, if_pos ⟨rfl, inside⟩]
  have others (other : Nat) (different : other ≠ id)
      : (workspace.build id step).2.graph other = workspace.graph other := by
    rw [Workspace.graph_build, if_neg fun same => different same.1]
  have result := Workspace.build_fst workspace id step
  simp only [onGraph, ends_bind, ends_get, ends_set]
  unfold Ends at ends
  generalize workspace.build id step = built at own others result ⊢
  generalize outcome step (workspace.graph id) = ran at ends own result
  obtain ⟨answer, graph⟩ := ran
  obtain ⟨given, next⟩ := built
  obtain rfl : given = answer := result
  obtain rfl : next.graph id = graph := own
  cases given with
  | ok value => exact ⟨ends, others⟩
  | error cause => exact ⟨⟨cause, rfl, ends⟩, others⟩

/-- After the storage of a buffer was written, a step on its graph ends as it ends on the graph
with that storage.
-/
theorem Execution.onGraph_stored_ends {α : Type} {buffer : Buffer} {written : Storage} {step : Build α}
    {workspace : Workspace} (inside : buffer.graph < workspace.size) {done : α → Graph → Prop}
    {failed : GraphError → Graph → Prop}
    (ends
      : Ends step ((workspace.graph buffer.graph).updateNode buffer.node (·.stored written)) done
          failed)
    : Ends (onGraph buffer.graph step) (workspace.withStorage buffer written)
        (fun value final =>
          done value (final.graph buffer.graph)
          ∧ ∀ other, other ≠ buffer.graph → final.graph other = workspace.graph other)
        (fun error final =>
          (∃ cause, error = .graph cause ∧ failed cause (final.graph buffer.graph))
          ∧ ∀ other, other ≠ buffer.graph → final.graph other = workspace.graph other) := by
  have filled
      : (workspace.withStorage buffer written).graph buffer.graph
        = (workspace.graph buffer.graph).updateNode buffer.node (·.stored written) := by
    rw [Workspace.graph_withStorage, if_pos ⟨rfl, inside⟩]
  have untouched (other : Nat) (different : other ≠ buffer.graph)
      : (workspace.withStorage buffer written).graph other = workspace.graph other := by
    rw [Workspace.graph_withStorage, if_neg fun same => different same.1]
  have present : buffer.graph < (workspace.withStorage buffer written).size := by
    simpa only [Workspace.size, Workspace.withStorage, Array.size_modify] using inside
  rw [← filled] at ends
  refine (onGraph_ends present ends).mono ?_ ?_
  · exact fun _ _ outcome =>
      ⟨outcome.1, fun other different => (outcome.2 other different).trans (untouched other different)⟩
  · exact fun _ _ outcome =>
      ⟨outcome.1, fun other different => (outcome.2 other different).trans (untouched other different)⟩

/-- Sources that can be had are the final storage of the sources of the task, by induction on
these.
-/
theorem PlanStep.sources_eq_ok {step : PlanStep} {workspace : Workspace}
    {storages : List Storage} (had : step.sources workspace = .ok storages)
    : ∃ stored : Buffer → Storage,
        storages = step.task.sources.map stored
        ∧ ∀ source ∈ step.task.sources, workspace.finished? source = some (stored source) := by
  let stored (source : Buffer) : Storage := (workspace.finished? source).getD ⟨default, #[]⟩
  refine ⟨stored, ?_⟩
  rw [sources] at had
  generalize step.task.sources = recorded at had ⊢
  induction recorded generalizing storages with
  | nil => exact ⟨(Except.ok.inj had).symm, by simp⟩
  | cons source rest ih =>
      rw [List.mapM_cons] at had
      cases final : workspace.finished? source with
      | none =>
          simp only [final] at had
          cases had
      | some storage =>
          have own : stored source = storage := by simp only [stored, final, Option.getD_some]
          simp only [final] at had
          generalize others : rest.mapM (m := Except EngineError) _ = result at had
          cases result with
          | error cause => cases had
          | ok behind =>
              obtain rfl := Except.ok.inj had
              obtain ⟨same, finished⟩ := ih others
              refine ⟨by rw [List.map_cons, own, same], ?_⟩
              refine List.forall_mem_cons.mpr ⟨by rw [own, final], finished⟩

/-- A kernel that runs leaves as many elements as there were, of the same type. -/
theorem Executable.shape_of_invoke {kernel : Executable} {arith : Arithmetic} {out written : Storage}
    {sources : List Storage} (ran : kernel.invoke arith out sources = .ok written)
    : written.dtype = out.dtype ∧ written.size = out.size := by
  rw [invoke] at ran
  split at ran
  · split at ran
    · cases ran
    · obtain rfl := Except.ok.inj ran
      exact ⟨rfl, size_apply _ _⟩
  · cases ran

/-- A kernel that implements the unit of a task and runs writes what the program of the task
computes, as many elements as there were: this is what the text of the unit says.
-/
theorem Executable.Implements.written {kernel : Executable} {task : Task} {program : Stmt}
    (implements : kernel.Implements (task.unit program)) (runs : task.Runs program)
    {arith : Arithmetic} (standard : arith.Standard)
    {out written : Storage} {sources : List Storage}
    (ran : kernel.invoke arith out sources = .ok written)
    : written.dtype = out.dtype
      ∧ written.cells
        = program.apply arith task.target.dtype out.cells (sources.map Storage.cells)
      ∧ written.size = out.size := by
  obtain ⟨type, size⟩ := shape_of_invoke ran
  refine ⟨type, ?_, size⟩
  rw [invoke] at ran
  split at ran
  · split at ran
    · cases ran
    · obtain rfl := Except.ok.inj ran
      obtain ⟨routine, reads, computes⟩ := implements.code
      obtain rfl := Option.some.inj (runs.read_unit.symm.trans reads)
      refine (computes arith out.cells _).trans (Stmt.apply_printed ?_ _)
      exact fun bits _ => standard.constant_narrowed task.target.dtype bits
  · cases ran

/-- A task with its kernel, as it is found in plans: the node records the task, and the kernel
implements the unit of the task.
-/
structure PlanStep.Ready (workspace : Workspace) (step : PlanStep) : Prop where
  recorded : step.task.Recorded workspace
  implements
    : ∃ program, step.task.Fits program ∧ step.kernel.Implements (step.task.unit program)

theorem PlanStep.Ready.later {old new : Workspace} (later : old.Extends new)
    (wf : old.WellFormed) {step : PlanStep} (ready : step.Ready old)
    : step.Ready new :=
  ⟨ready.recorded.later later wf, ready.implements⟩

section

variable {arith : Arithmetic} {given : Nat → Nat → Array Pattern} {workspace : Workspace}

/-- What a kernel makes of the final contents of the sources of its task shows the array of the
node.
-/
theorem Task.Recorded.shows (standard : arith.Standard) (right : workspace.Right arith given)
    {task : Task} (recorded : task.Recorded workspace) {program : Stmt}
    (fits : task.Fits program) {stored : Buffer → Storage}
    (finished : ∀ source ∈ task.sources, workspace.finished? source = some (stored source))
    {out : Array Pattern} (size : out.size = task.target.layout.physicalSize)
    : task.target.layout.Shows
        (program.apply arith task.target.dtype out
          (task.sources.map fun source => (stored source).cells))
        ⟨task.target.shape,
          (workspace.graph task.target.graph).reference arith (given task.target.graph)
            task.target.node⟩ := by
  obtain ⟨node, operation, found, made, same⟩ := recorded
  let graph := workspace.graph task.target.graph
  have own : graph.id = task.target.graph := (right.wellFormed _).1
  have wf := (right.graph task.target.graph).wellFormed
  have shown
      : ∀ source ∈ task.sources,
          source.layout.Shows (stored source).cells
            (graph.shown arith (given task.target.graph) source.source) := by
    intro source member
    have final := finished source member
    obtain ⟨recorded, inside, rfl⟩ : ∃ recorded ∈ operation.sources,
        graph.sourceView recorded = source := by
      rw [same] at member
      exact List.mem_map.mp member
    have reads := (wf _ node found).reads operation made recorded inside
    -- What a task takes from its sources is the final storage of their nodes.
    rw [Workspace.finished?] at final
    change (if (workspace.graph graph.id).isComputed recorded.node = true
      then (workspace.graph graph.id).storage? recorded.node else none) = _ at final
    rw [own] at final
    split at final
    · next computed => exact (right.computes _).source wf reads computed final
    · cases final
  have result := fits.apply_shows standard shown size
  have operationSame : task.operation = operation := congrArg Task.operation same
  have typeSame : task.target.dtype = node.dtype := congrArg (·.target.dtype) same
  have shapeSame : task.target.shape = node.layout.shape := congrArg (·.target.shape) same
  have arrays
      : task.sources.map (fun source => graph.shown arith (given task.target.graph) source.source)
        = operation.sources.map (graph.shown arith (given task.target.graph)) := by
    rw [congrArg Task.sources same]
    exact List.map_map
  rw [Graph.reference_of_made wf found made, ← typeSame, ← shapeSame, ← arrays, ← operationSame]
  exact result

/-- Taking memory leads on, however it ends. The storage that it answers with has the type and
size of its node.
-/
theorem Execution.allocate_ends (right : workspace.Right arith given) {id position : Nat} {node : Node}
    (found : (workspace.graph id).nodes[position]? = some node)
    : Ends (onGraph id (Graph.allocate position)) workspace
        (fun storage final =>
          workspace.LeadsTo arith given final
          ∧ (final.graph id).isComputed position = (workspace.graph id).isComputed position
          ∧ (final.graph id).storage? position = some storage
          ∧ storage.dtype = node.dtype
          ∧ storage.size = node.layout.physicalSize)
        (fun _ final => workspace.LeadsTo arith given final) := by
  have inside := Workspace.lt_size_of_found found
  refine (onGraph_ends inside (Graph.allocate_ends position _)).mono ?_ ?_
  · intro storage final outcome
    rcases outcome with ⟨allocates, others⟩
    obtain ⟨other, foundOther, type, size⟩ :=
      allocates.storage_fits (right.graph id).wellFormed
    obtain rfl := Option.some.inj (found.symm.trans foundOther)
    exact ⟨right.of_graph others ((right.graph id).allocates allocates),
      allocates.isComputed_eq position, allocates.storage?_eq, type, size⟩
  · intro _ final outcome
    rcases outcome with ⟨⟨_, _, same⟩, others⟩
    exact right.of_graph others (same ▸ (right.graph id).refl)

/-- A node that is not computed may be filled with its array and then marked. -/
theorem Execution.finish_ends (right : workspace.Right arith given) {buffer : Buffer} {node : Node}
    (found : (workspace.graph buffer.graph).nodes[buffer.node]? = some node)
    (pending : (workspace.graph buffer.graph).isComputed buffer.node = false)
    {written : Storage} (type : written.dtype = node.dtype)
    (size : written.size = node.layout.physicalSize)
    (shows
      : node.layout.Shows written.cells
          ⟨node.layout.shape,
            (workspace.graph buffer.graph).reference arith (given buffer.graph) buffer.node⟩)
    : Ends (onGraph buffer.graph (Graph.markComputed buffer.node))
        (workspace.withStorage buffer written)
        (fun _ final =>
          workspace.LeadsTo arith given final
          ∧ (final.graph buffer.graph).isComputed buffer.node = true)
        (fun _ final => workspace.LeadsTo arith given final) := by
  have inside := Workspace.lt_size_of_found found
  obtain ⟨stored, marked⟩ := (right.graph buffer.graph).filled found pending type size shows
  refine (onGraph_stored_ends inside (Graph.markComputed_ends _ _)).mono ?_ ?_
  · intro _ final outcome
    rcases outcome with ⟨⟨allocated, same⟩, others⟩
    constructor
    · exact right.of_graph others (same ▸ marked)
    · rw [same]
      exact Graph.isComputed_finished allocated
  · intro _ final outcome
    rcases outcome with ⟨⟨_, _, same⟩, others⟩
    exact right.of_graph others (same ▸ stored)

/-- A step that is ready leads a right workspace on, however it ends, and its target is computed
unless it fails.
-/
theorem PlanStep.execute_ends (standard : arith.Standard) (right : workspace.Right arith given)
    {step : PlanStep} (ready : step.Ready workspace)
    : Ends (step.execute arith) workspace
        (fun _ final =>
          workspace.LeadsTo arith given final
          ∧ (final.graph step.task.target.graph).isComputed step.task.target.node = true)
        (fun _ final => workspace.LeadsTo arith given final) := by
  obtain ⟨recorded, program, fits, implements⟩ := ready
  obtain ⟨node, operation, found, made, same⟩ := id recorded
  have layoutSame : step.task.target.layout = node.layout := congrArg (·.target.layout) same
  simp only [execute, ends_bind, ends_get]
  split
  · next computed => exact ⟨right.refl, computed⟩
  · next pending =>
      simp only [ends_bind, ends_liftExcept]
      split
      · next storages had =>
          obtain ⟨stored, rfl, finished⟩ := sources_eq_ok had
          refine (Execution.allocate_ends right found).mono ?_ (fun _ _ leads => leads)
          intro out middle outcome
          rcases outcome with ⟨leads, kept, _, type, size⟩
          split
          · next written ran =>
              obtain ⟨typeKept, cells, sizeKept⟩ := implements.written fits.runs standard ran
              obtain ⟨next, foundNext, stays⟩ := (leads.graph _).extends_.nodes _ node found
              have shows := recorded.shows standard right fits finished
                (size.trans (congrArg Layout.physicalSize layoutSame.symm))
              rw [Buffer.shape, layoutSame, ← stays.layout] at shows
              refine (Execution.finish_ends leads.right foundNext ?_ ?_ ?_ ?_).mono ?_ ?_
              · exact kept.trans (Bool.not_eq_true _ ▸ pending)
              · exact typeKept.trans (type.trans stays.dtype.symm)
              · exact sizeKept.trans (size.trans (congrArg Layout.physicalSize stays.layout.symm))
              · rw [cells, List.map_map, (leads.graph _).reference_eq (right.graph _) found]
                exact shows
              · exact fun _ final ends => ⟨leads.trans ends.1, ends.2⟩
              · exact fun _ final ends => leads.trans ends
          · exact leads
      · exact right.refl

/-- A plan that is ready leads a right workspace on, however it ends, and all its targets are
computed unless it fails, by induction on the plan.
-/
theorem Plan.run_ends (standard : arith.Standard) {plan : Plan}
    (right : workspace.Right arith given) (ready : ∀ step ∈ plan, step.Ready workspace)
    : Ends (plan.run arith) workspace
        (fun _ final =>
          workspace.LeadsTo arith given final
          ∧ ∀ step ∈ plan,
              (final.graph step.task.target.graph).isComputed step.task.target.node = true)
        (fun _ final => workspace.LeadsTo arith given final) := by
  induction plan generalizing workspace with
  | nil => exact ⟨right.refl, by simp⟩
  | cons step rest ih =>
      obtain ⟨first, others⟩ := List.forall_mem_cons.mp ready
      simp only [run, ends_bind]
      refine (step.execute_ends standard right first).mono ?_ (fun _ _ leads => leads)
      intro _ middle outcome
      rcases outcome with ⟨leads, computed⟩
      have next : ∀ step ∈ rest, step.Ready middle :=
        fun other member => (others other member).later leads.extends_ right.wellFormed
      refine (ih leads.right next).mono ?_ ?_
      · intro _ final outcome
        rcases outcome with ⟨leadsOn, all⟩
        refine ⟨leads.trans leadsOn, List.forall_mem_cons.mpr ⟨?_, all⟩⟩
        exact (leadsOn.graph _).computed _ computed
      · exact fun _ _ leadsOn => leads.trans leadsOn

end

end LazyTensor
