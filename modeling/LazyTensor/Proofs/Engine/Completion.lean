import LazyTensor.Proofs.Engine.Dependable
import LazyTensor.Proofs.Engine.Progress

/-! Buffers that are computed to the end. A schedule is made for every buffer, every task of it
has a kernel, and each kernel is called as it wants to be called. So what is left to fail is what
lies outside, and memory.
-/

namespace LazyTensor

/-- The tasks of a schedule with kernels of their signatures are a plan in order. -/
theorem Schedule.Contract.ordered_plan {workspace : Workspace} {id root : Nat} {plan : Plan}
    (contract : Schedule.Contract (workspace.graph id) root (plan.map PlanStep.task))
    (wf : workspace.WellFormed)
    : plan.Ordered workspace := by
  have recorded := contract.recorded (wf id).1
  intro before step after split source member
  have tasks
      : plan.map PlanStep.task
        = before.map PlanStep.task ++ step.task :: after.map PlanStep.task := by
    rw [split, List.map_append, List.map_cons]
  have listed : step.task ∈ plan.map PlanStep.task := by simp [tasks]
  obtain ⟨here, own⟩ := recorded step.task listed
  have same : source.graph = id := (own.has wf member).1.trans here
  rcases contract.ordered _ _ _ tasks source member with final | ⟨earlier, inside, target⟩
  · exact Or.inl (same ▸ final)
  · obtain ⟨other, within, rfl⟩ := List.mem_map.mp inside
    have listed : other.task ∈ plan.map PlanStep.task := by
      rw [tasks]
      exact List.mem_append_left _ inside
    exact Or.inr ⟨other, within, (recorded _ listed).1.trans same.symm, target⟩

namespace Machine

/-- Computing a buffer fails where its kernels are made or for want of memory. -/
theorem materialize_progress {arith : Arithmetic} {machine : Machine}
    (wf : machine.workspace.WellFormed) {buffer : Buffer} (held : machine.workspace.Has buffer)
    {schedule : Schedule}
    (scheduled : (machine.workspace.graph buffer.graph).schedule buffer.node = .ok schedule)
    (contract : Schedule.Contract (machine.workspace.graph buffer.graph) buffer.node schedule)
    {failed : EngineError → Prop}
    (prepared
      : Ends (Workshop.prepare schedule) machine.shop
          (fun plan _ =>
            plan.map PlanStep.task = schedule
            ∧ ∀ step ∈ plan,
                step.kernel.dtype = step.task.target.dtype
                ∧ step.kernel.arity = step.task.sources.length)
          (fun cause _ => failed cause))
    : Ends (materialize arith buffer) machine (fun _ _ => True)
        (fun cause _ => failed cause ∨ cause.ofMemory) := by
  obtain ⟨_, _, node, found, _⟩ := held
  simp only [materialize, execute, ends_bind, ends_get, scheduled]
  rw [prepare, ends_making]
  refine prepared.mono ?_ (fun _ _ => Or.inl)
  rintro plan shop ⟨rfl, suits⟩
  have recorded := contract.recorded (wf buffer.graph).1
  have callable : ∀ step ∈ plan, step.Callable machine.workspace := fun step member =>
    ⟨(recorded _ (List.mem_map_of_mem member)).2, (suits step member).1, (suits step member).2⟩
  rw [run, ends_executing]
  refine (Plan.run_progress wf callable (contract.ordered_plan wf)).mono ?_ (fun _ _ => Or.inr)
  intro _ workspace advances
  obtain ⟨next, foundNext, _⟩ := (advances.extends_ buffer.graph).nodes _ node found
  rw [ends_executing]
  exact (Execution.allocate_progress advances.wellFormed foundNext).mono (fun _ _ _ => trivial)
    fun _ _ short => Or.inr short.1

end Machine

/-- On every desk that callers can come to, each buffer that is held has a schedule, whatever has
been computed so far, and each task of the schedule has a kernel. When the buffer is computed,
with a cache that was asked for any kernels of tasks before, this fails for want of memory or
outside. With a toolchain and a disk that can be relied on, it fails for want of memory only.
-/
theorem Desk.Reachable.materialize_fails {desk : Desk} (reached : desk.Reachable) {buffer : Buffer}
    (held : buffer ∈ desk.buffers) {settings : Settings} {log : List Service} {cache : Cache}
    (history : Cache.History settings log cache) (asked : ∀ service ∈ log, service.unit.Scheduled)
    (toolchain : Toolchain) (host : Host) (arith : Arithmetic)
    : ∃ schedule,
        (desk.workspace.graph buffer.graph).schedule buffer.node = .ok schedule
        ∧ (∀ task ∈ schedule, ∃ unit, task.render = .ok unit)
        ∧ ∀ cause,
            (outcome (Machine.materialize arith buffer)
                ⟨desk.workspace, ⟨settings, { cache with toolchain }⟩, host⟩).1
              = .error cause →
            (cause.ofMemory ∨ cause.ofOutside)
            ∧ (toolchain.Dependable →
                host.Sound Artifact.Offers →
                (∀ task ∈ schedule, host.disk.Accommodates cache.place task.kernelName) →
                cause.ofMemory) := by
  have wf := reached.wellFormed
  obtain ⟨schedule, scheduled, contract⟩ := wf.workspace.schedule_ok (wf.buffers buffer held)
  have fits : ∀ task ∈ schedule, ∃ program, task.Fits program :=
    fun task member => wf.task_fits held scheduled member
  let machine : Machine := ⟨desk.workspace, ⟨settings, { cache with toolchain }⟩, host⟩
  have has : machine.workspace.Has buffer := wf.buffers buffer held
  have suits : machine.shop.cache.Suits := history.suits asked
  have each
      : ∀ task ∈ schedule, ∀ shop : Workshop, shop.cache.Suits →
          Ends (Workshop.prepareTask task) shop _ _ :=
    fun task member shop => Workshop.prepareTask_suits (fits task member) shop
  refine ⟨schedule, scheduled, ?_, fun cause given => ⟨?_, fun dependable sound room => ?_⟩⟩
  · intro task member
    obtain ⟨program, fit⟩ := fits task member
    exact ⟨_, fit.render_eq⟩
  · have prepared := Workshop.prepare_ends each machine.shop suits
    have ends : Ends (Machine.materialize arith buffer) machine _ _ :=
      Machine.materialize_progress wf.workspace has scheduled contract
        (prepared.mono (fun _ _ kept => kept.2) fun _ _ outside => outside)
    exact (ends.of_error given).symm
  · let reliable (shop : Workshop) : Prop :=
      shop.cache.Suits ∧ shop.Reliable (schedule.map Task.kernelName)
    have start : reliable machine.shop := ⟨suits, dependable, sound, List.forall_mem_map.mpr room⟩
    have each (task : Task) (member : task ∈ schedule) (shop : Workshop) (held : reliable shop)
        : Ends (Workshop.prepareTask task) shop
            (fun step final =>
              reliable final
              ∧ step.task = task
              ∧ step.kernel.dtype = step.task.target.dtype
              ∧ step.kernel.arity = step.task.sources.length)
            (fun _ _ => False) := by
      have succeeds := Workshop.prepareTask_succeeds held.2 (fits task member)
        (List.mem_map_of_mem member)
      refine ((each task member shop held.1).and succeeds).mono ?_ (fun _ _ failed => failed.2)
      exact fun _ _ both => ⟨⟨both.1.1, both.2⟩, both.1.2⟩
    have prepared := Workshop.prepare_ends each machine.shop start
    have ends : Ends (Machine.materialize arith buffer) machine _ _ :=
      Machine.materialize_progress wf.workspace has scheduled contract
        (prepared.mono (fun _ _ kept => kept.2) fun _ _ failed => failed)
    exact (ends.of_error given).resolve_left id

namespace Desk

/-- More zeros than memory can hold. -/
def sampleZeros : Buffer := ⟨0, 0, .float32, .dense [1 <<< 61]⟩

/-- A desk with the zeros. -/
def sampleVast : Desk := start.call (.fill 0 .empty [1 <<< 61] none .float32)

/-- The task of the zeros. -/
def zeros : Task := ⟨⟨.fill .empty, [], none⟩, sampleZeros, []⟩

/-- A request for a kernel of another desk. -/
def sampleService : Service :=
  ⟨(negation 1).unit (Kernel.mapKernel .neg sampleRows.layout),
    .start ⟨"cc", "-O2", "kernels", false⟩ (.simulated "cc" .working 0), .start⟩

/-- The zeros with a cache that holds the kernel of the other desk, on another host. -/
def sampleMachine : Machine :=
  ⟨sampleVast.workspace,
    ⟨⟨"cc", "-O2", "kernels", false⟩,
      { sampleService.after.cache with toolchain := .simulated "cc" .working 0 }⟩,
    .start⟩

/-- Why the zeros cannot be had. -/
def sampleCause : EngineError :=
  .graph (.storage 0 (.allocation .float32 (1 <<< 61) .capacityOverflow))

theorem accommodates_sample : Host.start.disk.Accommodates "kernels" zeros.kernelName where
  directory := by decide +kernel
  names := by decide +kernel
  paths := by decide +kernel
  free := by decide +kernel
  plain := by decide +kernel

theorem results_sample
    : (negation 1).render = .ok sampleService.unit
      ∧ sampleService.after.cache.place = "kernels"
      ∧ (outcome (Machine.materialize .ieee sampleZeros) sampleMachine).1 = .error sampleCause := by
  refine ⟨rfl, ?_⟩
  decide +kernel

/-- A cache that holds the kernel of another desk is no obstacle. The zeros have a schedule and a
kernel, and only memory is missing.
-/
theorem materialize_fails_sample
    : sampleService.unit.Scheduled
      ∧ Cache.History ⟨"cc", "-O2", "kernels", false⟩ [sampleService] sampleService.after.cache
      ∧ (∃ unit, zeros.render = .ok unit)
      ∧ (outcome (Machine.materialize .ieee sampleZeros) sampleMachine).1 = .error sampleCause
      ∧ sampleCause.ofMemory := by
  obtain ⟨rendered, place, failed⟩ := results_sample
  have reached : sampleVast.Reachable := .step .start (.call _ _ (by decide) (by decide))
  have scheduled : sampleService.unit.Scheduled :=
    ⟨sample, reachable_sample, sampleSums, by decide, [ones, negation 1, sums], rfl, negation 1,
      by decide, rendered⟩
  have history
      : Cache.History ⟨"cc", "-O2", "kernels", false⟩ [sampleService] sampleService.after.cache :=
    .request (.start sampleService.before.cache.toolchain) _ _ _
  have held : sampleZeros ∈ sampleVast.buffers := by decide
  obtain ⟨schedule, made, renders, fails⟩ :=
    reached.materialize_fails held history (List.forall_mem_singleton.mpr scheduled)
      (.simulated "cc" .working 0) .start .ieee
  obtain rfl : schedule = [zeros] := Except.ok.inj (made.symm.trans rfl)
  refine ⟨scheduled, history, renders zeros (by simp), failed, (fails sampleCause ?_).2 ?_ ?_ ?_⟩
  · exact failed
  · exact Toolchain.working_dependable "cc"
  · exact Host.Sound.start
  · exact List.forall_mem_singleton.mpr (place ▸ accommodates_sample)

end Desk

end LazyTensor
