import LazyTensor.Engine.Run
import LazyTensor.Proofs.Engine.Execution
import LazyTensor.Proofs.Schedule.Contract

/-! Engines at work. Making kernels touches no graph and running them touches no cache. However
one of the steps of an engine ends, cache and host give what they are asked for and the graphs are
right; and what is materialized shows the array of its buffer.
-/

namespace LazyTensor

/-- The tasks of a schedule of a graph are recorded by the nodes of the graph. -/
theorem Schedule.Contract.recorded {workspace : Workspace} {id root : Nat} {schedule : Schedule}
    (contract : Schedule.Contract (workspace.graph id) root schedule)
    (own : (workspace.graph id).id = id)
    : ∀ task ∈ schedule, task.target.graph = id ∧ task.Recorded workspace := by
  intro task member
  obtain ⟨node, operation, waits, same⟩ := contract.exists_waits member
  have graph : task.target.graph = id := (congrArg (·.target.graph) same).trans own
  exact ⟨graph, node, operation, graph ▸ waits.found, waits.made, graph ▸ same⟩

/-- Cache and host give what they are asked for and the graphs are right. -/
structure Machine.Sound (arith : Arithmetic) (given : Nat → Nat → Array Pattern)
    (machine : Machine)
    : Prop where
  cache : machine.engine.cache.Sound
  host : machine.host.Sound Artifact.Serves
  workspace : machine.workspace.Right arith given

/-- A later state of a machine that is sound, with graphs that the earlier ones lead to. -/
structure Machine.LeadsTo (arith : Arithmetic) (given : Nat → Nat → Array Pattern)
    (old new : Machine)
    : Prop where
  sound : new.Sound arith given
  workspace : old.workspace.LeadsTo arith given new.workspace

namespace Machine

/-- Cache and host of a machine. -/
def shop (machine : Machine) : Workshop := ⟨machine.engine.cache, machine.host⟩

/-- The machine with another cache and another host. -/
def withShop (machine : Machine) (shop : Workshop) : Machine :=
  { machine with engine := { machine.engine with cache := shop.cache }, host := shop.host }

/-- A step on cache and host ends on the machine as it does there. -/
theorem ends_making {α : Type} {step : Making α} {machine : Machine} {done : α → Machine → Prop}
    {failed : EngineError → Machine → Prop}
    : Ends (Running.making step) machine done failed
      ↔ Ends step machine.shop (fun value shop => done value (machine.withShop shop))
          (fun cause shop => failed cause (machine.withShop shop)) := by
  simp only [Running.making, ends_bind, ends_get, shop]
  unfold Ends outcome
  rcases step.run.run ⟨machine.engine.cache, machine.host⟩ with ⟨cause | value, shop⟩ <;> rfl

/-- A step on the graphs ends on the machine as it does there. -/
theorem ends_executing {α : Type} {step : Execution α} {machine : Machine}
    {done : α → Machine → Prop} {failed : EngineError → Machine → Prop}
    : Ends (Running.executing step) machine done failed
      ↔ Ends step machine.workspace (fun value workspace => done value { machine with workspace })
          (fun cause workspace => failed cause { machine with workspace }) := by
  simp only [Running.executing, ends_bind, ends_get]
  unfold Ends outcome
  rcases step.run.run machine.workspace with ⟨cause | value, workspace⟩ <;> rfl

/-- A step on cache and host has the outcome that it has there. -/
theorem outcome_making {α : Type} (step : Making α) (machine : Machine)
    : outcome (Running.making step) machine
      = ((outcome step machine.shop).1, machine.withShop (outcome step machine.shop).2) := by
  refine Ends.outcome_eq (ends_making.mpr ?_)
  unfold Ends
  rcases outcome step machine.shop with ⟨cause | value, shop⟩ <;> rfl

/-- A step on the graphs has the outcome that it has there. -/
theorem outcome_executing {α : Type} (step : Execution α) (machine : Machine)
    : outcome (Running.executing step) machine
      = ((outcome step machine.workspace).1,
          { machine with workspace := (outcome step machine.workspace).2 }) := by
  refine Ends.outcome_eq (ends_executing.mpr ?_)
  unfold Ends
  rcases outcome step machine.workspace with ⟨cause | value, workspace⟩ <;> rfl

section

variable {arith : Arithmetic} {given : Nat → Nat → Array Pattern} {machine : Machine}

theorem LeadsTo.trans {first second third : Machine} (left : first.LeadsTo arith given second)
    (right : second.LeadsTo arith given third)
    : first.LeadsTo arith given third :=
  ⟨right.sound, left.workspace.trans right.workspace⟩

/-- What is safe on cache and host leads a machine on and leaves its graphs as they are. -/
theorem making_ends (sound : machine.Sound arith given) {α : Type} {step : Making α}
    {promise : α → Prop} (safe : Workshop.Safe step promise)
    : Ends (Running.making step) machine
        (fun value final =>
          machine.LeadsTo arith given final ∧ final.workspace = machine.workspace ∧ promise value)
        (fun _ final => machine.LeadsTo arith given final) := by
  have leads {shop : Workshop} (kept : shop.Sound)
      : machine.LeadsTo arith given (machine.withShop shop) :=
    ⟨⟨kept.cache, kept.host, sound.workspace⟩, sound.workspace.refl⟩
  rw [ends_making]
  refine (safe machine.shop ⟨sound.cache, sound.host⟩).mono ?_ (fun _ _ => leads)
  exact fun _ _ kept => ⟨leads kept.1, rfl, kept.2⟩

/-- What leads graphs on leads a machine on. -/
theorem executing_ends (sound : machine.Sound arith given) {α : Type} {step : Execution α}
    {done : α → Workspace → Prop}
    (ends
      : Ends step machine.workspace
          (fun value final => machine.workspace.LeadsTo arith given final ∧ done value final)
          (fun _ final => machine.workspace.LeadsTo arith given final))
    : Ends (Running.executing step) machine
        (fun value final => machine.LeadsTo arith given final ∧ done value final.workspace)
        (fun _ final => machine.LeadsTo arith given final) := by
  have leads {workspace : Workspace} (ahead : machine.workspace.LeadsTo arith given workspace)
      : machine.LeadsTo arith given { machine with workspace } :=
    ⟨⟨sound.cache, sound.host, ahead.right⟩, ahead⟩
  rw [ends_executing]
  exact ends.mono (fun _ _ ahead => ⟨leads ahead.1, ahead.2⟩) fun _ _ => leads

/-- Making the kernels of recorded tasks leads a machine on and gives a plan that is ready, with the
tasks in their order.
-/
theorem prepare_ends (sound : machine.Sound arith given) {schedule : Schedule}
    (recorded : ∀ task ∈ schedule, task.Recorded machine.workspace)
    : Ends (prepare schedule) machine
        (fun plan final =>
          machine.LeadsTo arith given final
          ∧ plan.map PlanStep.task = schedule
          ∧ ∀ step ∈ plan, step.Ready final.workspace)
        (fun _ final => machine.LeadsTo arith given final) := by
  have fits : ∀ task ∈ schedule, ∃ program, task.Fits program :=
    fun task member => (recorded task member).fits sound.workspace.wellFormed
  refine (making_ends sound (Workshop.safe_prepare fits)).mono ?_ (fun _ _ leads => leads)
  intro plan final outcome
  rcases outcome with ⟨leads, same, tasks, ready⟩
  refine ⟨leads, tasks, ?_⟩
  intro step member
  have listed : step.task ∈ schedule := tasks ▸ List.mem_map_of_mem member
  exact ⟨same ▸ recorded step.task listed, ready step member⟩

/-- Running a plan that is ready leads a machine on and computes all targets unless it fails. -/
theorem run_ends (standard : arith.Standard) (sound : machine.Sound arith given) {plan : Plan}
    (ready : ∀ step ∈ plan, step.Ready machine.workspace)
    : Ends (run arith plan) machine
        (fun _ final =>
          machine.LeadsTo arith given final
          ∧ ∀ step ∈ plan,
              (final.workspace.graph step.task.target.graph).isComputed step.task.target.node
                = true)
        (fun _ final => machine.LeadsTo arith given final) :=
  executing_ends sound (Plan.run_ends standard sound.workspace ready)

/-- Executing recorded tasks leads a machine on and computes all targets unless it fails. -/
theorem execute_ends (standard : arith.Standard) (sound : machine.Sound arith given)
    {schedule : Schedule} (recorded : ∀ task ∈ schedule, task.Recorded machine.workspace)
    : Ends (execute arith schedule) machine
        (fun _ final =>
          machine.LeadsTo arith given final
          ∧ ∀ task ∈ schedule,
              (final.workspace.graph task.target.graph).isComputed task.target.node = true)
        (fun _ final => machine.LeadsTo arith given final) := by
  simp only [execute, ends_bind]
  refine (prepare_ends sound recorded).mono ?_ (fun _ _ leads => leads)
  intro plan middle outcome
  rcases outcome with ⟨leads, tasks, ready⟩
  refine (run_ends standard leads.sound ready).mono ?_ ?_
  · intro _ final outcome
    rcases outcome with ⟨leadsOn, computed⟩
    refine ⟨leads.trans leadsOn, ?_⟩
    rw [← tasks]
    exact List.forall_mem_map.mpr computed
  · exact fun _ _ leadsOn => leads.trans leadsOn

/-- Executing the schedule of a buffer computes its node unless it fails: a node that was not computed
before is the target of the last task.
-/
theorem execute_schedule_ends (standard : arith.Standard) (sound : machine.Sound arith given)
    {buffer : Buffer} (held : machine.workspace.Has buffer) {schedule : Schedule}
    (made : (machine.workspace.graph buffer.graph).schedule buffer.node = .ok schedule)
    : Ends (execute arith schedule) machine
        (fun _ final =>
          machine.LeadsTo arith given final
          ∧ (final.workspace.graph buffer.graph).isComputed buffer.node = true)
        (fun _ final => machine.LeadsTo arith given final) := by
  obtain ⟨other, scheduled, contract⟩ := sound.workspace.wellFormed.schedule_ok held
  obtain rfl := Except.ok.inj (made.symm.trans scheduled)
  have recorded := contract.recorded (sound.workspace.wellFormed buffer.graph).1
  refine (execute_ends standard sound fun task member => (recorded task member).2).mono ?_
    (fun _ _ leads => leads)
  intro _ final outcome
  rcases outcome with ⟨leads, computed⟩
  refine ⟨leads, ?_⟩
  cases before : (machine.workspace.graph buffer.graph).isComputed buffer.node with
  | true => exact (leads.workspace.graph _).computed _ before
  | false =>
      obtain ⟨task, last, root⟩ := contract.last before
      have member := List.mem_of_getLast? last
      rw [← root, ← (recorded task member).1]
      exact computed task member

/-- What is materialized are the final contents of its buffer's node: the node is computed when all
tasks have run, so its memory is not taken anew.
-/
theorem materialize_ends (standard : arith.Standard) (sound : machine.Sound arith given)
    {buffer : Buffer} (held : machine.workspace.Has buffer)
    : Ends (materialize arith buffer) machine
        (fun storage final =>
          machine.LeadsTo arith given final
          ∧ final.workspace.finished? buffer = some storage)
        (fun _ final => machine.LeadsTo arith given final) := by
  obtain ⟨node, found⟩
      : ∃ node, (machine.workspace.graph buffer.graph).nodes[buffer.node]? = some node := by
    obtain ⟨_, _, node, found, _⟩ := held
    exact ⟨node, found⟩
  obtain ⟨schedule, scheduled, _⟩ := sound.workspace.wellFormed.schedule_ok held
  simp only [materialize, ends_bind, ends_get, scheduled]
  refine (execute_schedule_ends standard sound held scheduled).mono ?_ (fun _ _ leads => leads)
  intro _ middle outcome
  rcases outcome with ⟨leads, final⟩
  obtain ⟨next, foundNext, _⟩ := (leads.workspace.extends_ buffer.graph).nodes _ node found
  refine (executing_ends leads.sound
    (Execution.allocate_ends leads.sound.workspace foundNext)).mono ?_ ?_
  · intro storage last outcome
    rcases outcome with ⟨leadsOn, kept, had, _⟩
    refine ⟨leads.trans leadsOn, ?_⟩
    simp only [Workspace.finished?, kept.trans final, had, if_true]
  · exact fun _ _ leadsOn => leads.trans leadsOn

end

end Machine

end LazyTensor
