import LazyTensor.Proofs.Engine.Atomicity

/-! What engines leave behind. An engine takes memory for a node only to compute it, and kernels that
suit their tasks never refuse the storage that they are called with. So when an engine stops, in the
middle of its work or not, each node that is not computed by then is as it was when the engine began.
-/

namespace LazyTensor

/-- The nodes that are not computed are as they were before. -/
def Workspace.Settles (old new : Workspace) : Prop :=
  ∀ id position,
    (new.graph id).isComputed position = false →
      (new.graph id).nodes[position]? = (old.graph id).nodes[position]?

open Workspace

variable {arith : Arithmetic} {workspace final : Workspace}

/-- If a plan touched its targets only and has computed them, then the other nodes are as they were. -/
theorem Workspace.SameOutside.settles {plan : Plan} (others : workspace.SameOutside plan.Targets final)
    (computed : plan.Computed final)
    : workspace.Settles final := by
  intro id position pending
  apply others id position
  intro target
  obtain ⟨step, member, rfl, rfl⟩ := target
  have marked := computed step member
  rw [pending] at marked
  cases marked

/-- A plan settles what it touches, wherever it stops. -/
theorem Plan.Runs.settles {plan : Plan} {result : Except EngineError Unit}
    (runs : Plan.Runs arith plan workspace result final)
    : workspace.Settles final := by
  cases runs with
  | through _ computed _ others => exact others.settles computed
  | upTo before step after middle _ cause split ran stopped stuck computed _ same others =>
      exact others.settles computed

theorem Plan.run_settles (wf : workspace.WellFormed) {plan : Plan}
    (callable : ∀ step ∈ plan, step.Callable workspace)
    : Ends (plan.run arith) workspace (fun _ => workspace.Settles) (fun _ => workspace.Settles) := by
  unfold Ends
  rcases ran : outcome (plan.run arith) workspace with ⟨cause | _, final⟩
  · exact (runs wf callable ran).2.settles
  · exact (runs wf callable ran).2.settles

namespace Workshop

/-- Kernels in memory suit their names after the kernel of a task was asked for, however that ends.
-/
theorem keeps_prepareTask {task : Task} (fits : ∃ program, task.Fits program)
    : Keeps (·.cache.Suits) (prepareTask task) := by
  obtain ⟨program, fits⟩ := fits
  intro shop suits
  have kept := ((served_request (task.unit program) shop).suits ⟨task, program, fits, rfl⟩ suits).1
  simp only [prepareTask, fits.render_eq, ends_bind, ends_pure]
  revert kept
  unfold Ends
  rcases outcome (request (task.unit program)) shop with ⟨cause | kernel, final⟩
  · exact id
  · exact id

/-- The kernels of tasks suit the tasks, and those in memory suit their names as before, however
making them ends.
-/
theorem prepare_suits {tasks : List Task} (fits : ∀ task ∈ tasks, ∃ program, task.Fits program)
    {shop : Workshop} (suits : shop.cache.Suits)
    : Ends (prepare tasks) shop
        (fun plan final =>
          final.cache.Suits
          ∧ plan.map PlanStep.task = tasks
          ∧ ∀ step ∈ plan,
              step.kernel.dtype = step.task.target.dtype
              ∧ step.kernel.arity = step.task.sources.length)
        (fun _ final => final.cache.Suits) := by
  refine prepare_ends (fun task member shop suits => ?_) shop suits
  have both := (prepareTask_suits (fits task member) shop suits).and
    (keeps_prepareTask (fits task member) shop suits)
  exact both.mono (fun _ _ made => made.1) fun _ _ failed => failed.2

end Workshop

/-- Executing recorded tasks settles the graphs, however it ends, and the kernels that the engine then
has in memory suit their names as before.
-/
theorem Desk.Reachable.execute_settles {desk : Desk} (reached : desk.Reachable) {tasks : List Task}
    (recorded : ∀ task ∈ tasks, task.Recorded desk.workspace) {engine : Engine}
    (suits : engine.cache.Suits) (host : Host)
    : Ends (Machine.execute arith tasks) ⟨desk.workspace, engine, host⟩
        (fun _ final => final.engine.cache.Suits ∧ desk.workspace.Settles final.workspace)
        (fun _ final => final.engine.cache.Suits ∧ desk.workspace.Settles final.workspace) := by
  have wf := reached.wellFormed.workspace
  have fits : ∀ task ∈ tasks, ∃ program, task.Fits program := fun task member =>
    (recorded task member).fits wf
  let machine : Machine := ⟨desk.workspace, engine, host⟩
  have prepared := Workshop.prepare_suits fits (show machine.shop.cache.Suits from suits)
  simp only [Machine.execute, Machine.prepare, Machine.run, ends_bind, Machine.ends_making,
    Machine.ends_executing]
  refine prepared.mono ?_ (fun _ _ kept => ⟨kept, fun _ _ _ => rfl⟩)
  intro plan shop made
  obtain ⟨kept, same, signature⟩ := made
  have callable : ∀ step ∈ plan, step.Callable desk.workspace := fun step member =>
    ⟨recorded _ (same ▸ List.mem_map_of_mem member), (signature step member).1,
      (signature step member).2⟩
  exact (Plan.run_settles wf callable).mono (fun _ _ settles => ⟨kept, settles⟩)
    fun _ _ settles => ⟨kept, settles⟩

end LazyTensor
