import LazyTensor.Proofs.Engine.Machine
import LazyTensor.Proofs.Reference.Reading

/-! Whole runs of a program. Graphs are built, memory is taken, engines are started, kernels are made
and plans are run, in any order: schedules are kept and executed later on any engine, plans are kept
and run again, engines share one host, and steps that fail leave behind what they have done. In
every state that is reached, whatever is computed is right.
-/

namespace LazyTensor

/-- Graphs and what callers hold: buffers, schedules, plans and engines on one host, with the data
from outside that were given so far, by graph and node.
-/
structure Workbench where
  desk : Desk
  schedules : List Schedule
  plans : List Plan
  engines : List Engine
  host : Host
  given : Nat → Nat → Array Pattern

namespace Workbench

/-- One empty graph and an empty disk. -/
def start : Workbench := ⟨.start, [], [], [], .start, fun _ _ => #[]⟩

/-- One of the engines with the graphs and the host. -/
def machine (bench : Workbench) (engine : Engine) : Machine :=
  ⟨bench.desk.workspace, engine, bench.host⟩

/-- The workbench with other graphs. -/
def withWorkspace (bench : Workbench) (workspace : Workspace) : Workbench :=
  { bench with desk := { bench.desk with workspace } }

/-- The workbench as one of its engines leaves it. -/
def withMachine (bench : Workbench) (number : Nat) (machine : Machine) : Workbench :=
  { bench.withWorkspace machine.workspace with
    engines := bench.engines.set number machine.engine
    host := machine.host }

/-- The workbench after a call of a builder. The data that a call brings are given from then on. -/
def call (bench : Workbench) (call : BuildCall) : Workbench :=
  { bench with
    desk := bench.desk.call call
    given :=
      match (bench.desk.workspace.build call.graph call.step).1 with
      | .ok buffer =>
          Function.update bench.given call.graph
            (call.given buffer.node (bench.given call.graph))
      | .error _ => bench.given }

/-- The workbench after making the kernels of a schedule. The plan is held from then on. -/
def prepare (bench : Workbench) (number : Nat) (engine : Engine) (schedule : Schedule)
    : Workbench :=
  match outcome (Machine.prepare schedule) (bench.machine engine) with
  | (.ok plan, machine) =>
      { bench.withMachine number machine with plans := plan :: bench.plans }
  | (.error _, machine) => bench.withMachine number machine

/-- One step of any caller. Elements are not overwritten and nodes are not marked but by plans. -/
inductive Step (arith : Arithmetic) : Workbench → Workbench → Prop
  | addGraph (bench : Workbench)
    : Step arith bench (bench.withWorkspace bench.desk.workspace.addGraph)
  /-- A builder is called on a graph that is there with buffers that are held. -/
  | call (bench : Workbench) (call : BuildCall) (present : call.graph < bench.desk.workspace.size)
    (held : ∀ operand ∈ call.operands, operand ∈ bench.desk.buffers)
    : Step arith bench (bench.call call)
  /-- A node is looked at as it lies in its own storage. -/
  | node (bench : Workbench) (id position : Nat) (buffer : Buffer)
    (found : (bench.desk.workspace.graph id).nodeView position = some buffer)
    : Step arith bench { bench with desk := bench.desk.hold buffer }
  /-- A source of a node is looked at as it was recorded. -/
  | source (bench : Workbench) (id position : Nat) (node : Node) (operation : Operation)
    (source : Source) (found : (bench.desk.workspace.graph id).nodes[position]? = some node)
    (made : node.producer = some operation) (member : source ∈ operation.sources)
    : Step arith bench
        { bench with
          desk := bench.desk.hold ((bench.desk.workspace.graph id).sourceView source) }
  /-- Memory is taken for a node and nothing is computed. -/
  | allocate (bench : Workbench) (id position : Nat)
    : Step arith bench { bench with desk := bench.desk.change id (Graph.allocate position) }
  /-- A schedule is made for a buffer and held. -/
  | schedule (bench : Workbench) (buffer : Buffer) (held : buffer ∈ bench.desk.buffers)
    (schedule : Schedule)
    (made : (bench.desk.workspace.graph buffer.graph).schedule buffer.node = .ok schedule)
    : Step arith bench { bench with schedules := schedule :: bench.schedules }
  /-- An engine is started with a toolchain that may fail but does not lie. -/
  | engine (bench : Workbench) (settings : Settings) (toolchain : Toolchain)
    (faithful : toolchain.Faithful)
    : Step arith bench { bench with engines := .start settings toolchain :: bench.engines }
  /-- Kernels are made for a schedule that is held. -/
  | prepare (bench : Workbench) (number : Nat) (engine : Engine)
    (found : bench.engines[number]? = some engine) (schedule : Schedule)
    (held : schedule ∈ bench.schedules)
    : Step arith bench (bench.prepare number engine schedule)
  /-- A schedule that is held is executed. -/
  | execute (bench : Workbench) (number : Nat) (engine : Engine)
    (found : bench.engines[number]? = some engine) (schedule : Schedule)
    (held : schedule ∈ bench.schedules)
    : Step arith bench
        (bench.withMachine number
          (outcome (Machine.execute arith schedule) (bench.machine engine)).2)
  /-- A buffer that is held is computed with everything that it needs. -/
  | materialize (bench : Workbench) (number : Nat) (engine : Engine)
    (found : bench.engines[number]? = some engine) (buffer : Buffer)
    (held : buffer ∈ bench.desk.buffers)
    : Step arith bench
        (bench.withMachine number
          (outcome (Machine.materialize arith buffer) (bench.machine engine)).2)
  /-- Steps of plans that are held are run, be it whole plans or parts of them. -/
  | run (bench : Workbench) (plan : Plan)
    (held : ∀ step ∈ plan, ∃ other ∈ bench.plans, step ∈ other)
    : Step arith bench
        (bench.withWorkspace (outcome (plan.run arith) bench.desk.workspace).2)
  /-- The host gives other amounts of memory. -/
  | serve (bench : Workbench) (id : Nat) (memory : (node bytes : Nat) → Bool)
    : Step arith bench { bench with desk := bench.desk.change id (Graph.serve memory) }
  /-- Libraries are closed. -/
  | close (bench : Workbench) (inUse : Nat → Bool)
    : Step arith bench { bench with host := bench.host.closeUnused inUse }

/-- A workbench that callers can come to. -/
inductive Reachable (arith : Arithmetic) : Workbench → Prop
  | start : Reachable arith .start
  | step {bench next : Workbench} (reached : Reachable arith bench)
    (step : bench.Step arith next)
    : Reachable arith next

/-- All that holds at all times. -/
structure Sound (arith : Arithmetic) (bench : Workbench) : Prop where
  desk : bench.desk.WellFormed
  computes : ∀ id, (bench.desk.workspace.graph id).Computes arith (bench.given id)
  schedules
    : ∀ schedule ∈ bench.schedules, ∀ task ∈ schedule, task.Recorded bench.desk.workspace
  plans : ∀ plan ∈ bench.plans, ∀ step ∈ plan, step.Ready bench.desk.workspace
  engines : ∀ engine ∈ bench.engines, engine.cache.Sound
  host : bench.host.Sound Artifact.Serves

namespace Sound

variable {arith : Arithmetic} {bench : Workbench}

/-- The first workbench is sound. -/
theorem start : Sound arith .start where
  desk := Desk.wellFormed_start
  computes := by
    intro id
    change (Workspace.start.graph id).Computes arith _
    rw [Workspace.graph_start]
    exact .empty id
  schedules := by simp [Workbench.start]
  plans := by simp [Workbench.start]
  engines := by simp [Workbench.start]
  host := .start

theorem right (sound : bench.Sound arith) : bench.desk.workspace.Right arith bench.given :=
  ⟨sound.desk.workspace, sound.computes⟩

theorem machine (sound : bench.Sound arith) {engine : Engine} (member : engine ∈ bench.engines)
    : (bench.machine engine).Sound arith bench.given :=
  ⟨sound.engines engine member, sound.host, sound.right⟩

/-- A workbench stays sound when its graphs move on: schedules and plans that are held stay what
they are.
-/
theorem withDesk (sound : bench.Sound arith) {desk : Desk} {given : Nat → Nat → Array Pattern}
    (wf : desk.WellFormed) (later : bench.desk.workspace.Extends desk.workspace)
    (computes : ∀ id, (desk.workspace.graph id).Computes arith (given id))
    : Sound arith { bench with desk, given } where
  desk := wf
  computes := computes
  schedules := fun schedule held task member =>
    (sound.schedules schedule held task member).later later sound.desk.workspace
  plans := fun plan held step member =>
    (sound.plans plan held step member).later later sound.desk.workspace
  engines := sound.engines
  host := sound.host

theorem withWorkspace (sound : bench.Sound arith) {workspace : Workspace}
    (leads : bench.desk.workspace.LeadsTo arith bench.given workspace)
    : (bench.withWorkspace workspace).Sound arith :=
  sound.withDesk (sound.desk.later ⟨leads.right.wellFormed, leads.extends_⟩) leads.extends_
    leads.right.computes

/-- A workbench stays sound when one of its engines leads on. -/
theorem withMachine (sound : bench.Sound arith) {engine : Engine} {machine : Machine}
    (leads : (bench.machine engine).LeadsTo arith bench.given machine) (number : Nat)
    : (bench.withMachine number machine).Sound arith where
  desk := (sound.withWorkspace leads.workspace).desk
  computes := (sound.withWorkspace leads.workspace).computes
  schedules := (sound.withWorkspace leads.workspace).schedules
  plans := (sound.withWorkspace leads.workspace).plans
  engines := by
    intro other member
    rcases List.mem_or_eq_of_mem_set member with old | rfl
    · exact sound.engines other old
    · exact leads.sound.cache
  host := leads.sound.host

/-- A workbench stays sound when a builder is called: what the call makes waits, or it is what the
call was given.
-/
theorem call (sound : bench.Sound arith) (call : BuildCall)
    (present : call.graph < bench.desk.workspace.size)
    (held : ∀ operand ∈ call.operands, operand ∈ bench.desk.buffers)
    : (bench.call call).Sound arith := by
  obtain ⟨own, graphWf⟩ := sound.desk.workspace call.graph
  have operands := sound.desk.operands_in held
  have later := sound.desk.workspace.build (call.step_later graphWf own.symm operands).1
  have ends := call.step_ends graphWf own.symm operands
  rw [← bench.desk.workspace_call] at later
  refine sound.withDesk (sound.desk.call call present held) later.2 ?_
  intro id
  rw [bench.desk.workspace_call, Workspace.graph_build, Workspace.build_fst]
  unfold Ends at ends
  generalize outcome call.step (bench.desk.workspace.graph call.graph) = ran at ends ⊢
  obtain ⟨cause | buffer, final⟩ := ran
  · obtain rfl : final = bench.desk.workspace.graph call.graph := ends
    split
    · next same => exact same.1 ▸ sound.computes call.graph
    · exact sound.computes id
  · have makes : call.Makes (bench.desk.workspace.graph call.graph) buffer final := ends
    dsimp only
    by_cases same : id = call.graph
    · subst same
      rw [if_pos ⟨rfl, present⟩, Function.update_self]
      exact makes.computes graphWf (sound.computes call.graph)
    · rw [if_neg fun both => same both.1, Function.update_of_ne same]
      exact sound.computes id

/-- A workbench stays sound when the kernels of a schedule that is held are made. -/
theorem prepare (sound : bench.Sound arith) {number : Nat} {engine : Engine}
    (found : bench.engines[number]? = some engine) {schedule : Schedule}
    (held : schedule ∈ bench.schedules)
    : (bench.prepare number engine schedule).Sound arith := by
  have ends := Machine.prepare_ends (sound.machine (List.mem_of_getElem? found))
    (sound.schedules schedule held)
  unfold Ends at ends
  rw [Workbench.prepare]
  generalize outcome (Machine.prepare schedule) (bench.machine engine) = ran at ends ⊢
  obtain ⟨cause | plan, machine⟩ := ran
  · exact sound.withMachine ends number
  · obtain ⟨leads, _, ready⟩ := ends
    have next := sound.withMachine leads number
    exact { next with plans := List.forall_mem_cons.mpr ⟨ready, next.plans⟩ }

/-- Every step keeps a workbench sound, however it ends. -/
theorem step {next : Workbench} (standard : arith.Standard) (sound : bench.Sound arith)
    (step : bench.Step arith next)
    : next.Sound arith := by
  cases step with
  | addGraph =>
      refine sound.withDesk (sound.desk.step (.addGraph _)) ?_ ?_
      · intro id
        rw [Workspace.graph_addGraph]
        exact .refl _
      · intro id
        rw [Workspace.graph_addGraph]
        exact sound.computes id
  | call call present held => exact sound.call call present held
  | node id position buffer found =>
      exact sound.withDesk (sound.desk.step (.node _ id position buffer found)) (.refl _)
        sound.computes
  | source id position node operation source found made member =>
      exact sound.withDesk
        (sound.desk.step (.source _ id position node operation source found made member)) (.refl _)
        sound.computes
  | allocate id position => exact sound.withWorkspace (sound.right.allocate id position)
  | schedule buffer held schedule made =>
      obtain ⟨other, scheduled, contract⟩ :=
        sound.desk.workspace.schedule_ok (sound.desk.buffers buffer held)
      obtain rfl := Except.ok.inj (made.symm.trans scheduled)
      have own := (sound.desk.workspace buffer.graph).1
      have recorded := fun task member => (contract.recorded own task member).2
      exact { sound with schedules := List.forall_mem_cons.mpr ⟨recorded, sound.schedules⟩ }
  | engine settings toolchain faithful =>
      exact { sound with
        engines := List.forall_mem_cons.mpr ⟨.start settings faithful, sound.engines⟩ }
  | prepare number engine found schedule held => exact sound.prepare found held
  | execute number engine found schedule held =>
      have ends := Machine.execute_ends standard (sound.machine (List.mem_of_getElem? found))
        (sound.schedules schedule held)
      have leads := (ends.mono (fun _ _ both => both.1) fun _ _ leads => leads).final _
      exact sound.withMachine leads number
  | materialize number engine found buffer held =>
      have ends := Machine.materialize_ends standard (sound.machine (List.mem_of_getElem? found))
        (sound.desk.buffers buffer held)
      have leads := (ends.mono (fun _ _ all => all.1) fun _ _ leads => leads).final _
      exact sound.withMachine leads number
  | run plan held =>
      have ready : ∀ step ∈ plan, step.Ready bench.desk.workspace := by
        intro step member
        obtain ⟨other, listed, inside⟩ := held step member
        exact sound.plans other listed step inside
      have ends := Plan.run_ends standard sound.right ready
      have leads := (ends.mono (fun _ _ both => both.1) fun _ _ leads => leads).final _
      exact sound.withWorkspace leads
  | serve id memory => exact sound.withWorkspace (sound.right.serve id memory)
  | close inUse => exact { sound with host := sound.host.closeUnused inUse }

end Sound

/-- Every workbench that is reached is sound, by induction on the steps. -/
theorem Reachable.sound {arith : Arithmetic} (standard : arith.Standard) {bench : Workbench}
    (reached : bench.Reachable arith)
    : bench.Sound arith := by
  induction reached with
  | start => exact .start
  | step _ step ih => exact ih.step standard step

/-- An engine with a compiler that works. -/
def sampleEngine : Engine :=
  .start ⟨"cc", "-O2", "kernels", false⟩ (Toolchain.simulated "cc" .working 0)

/-- The numbers one, two and three. -/
def sampleData : Buffer := ⟨0, 0, .float32, .dense [3]⟩

/-- Their total. -/
def sampleTotal : Buffer := ⟨0, 1, .float32, .dense []⟩

/-- The calls that lead to the total. -/
def sampleCalls : List BuildCall :=
  [.ofArray 0 .float32 #[0x3F800000, 0x40000000, 0x40400000] [3], .reduce sampleData .sum 0]

/-- The total as it waits for an engine. -/
def sampleStart : Workbench :=
  { (start.call sampleCalls[0]).call sampleCalls[1] with engines := [sampleEngine] }

/-- The total after it was materialized. -/
def sample : Workbench :=
  sampleStart.withMachine 0
    (outcome (Machine.materialize .ieee sampleTotal) (sampleStart.machine sampleEngine)).2

theorem reachable_sample : sample.Reachable .ieee := by
  have first : Reachable .ieee (start.call sampleCalls[0]) :=
    .step .start (.call _ _ (by decide) (by decide))
  have second := Reachable.step first (.call _ sampleCalls[1] (by decide) (by decide))
  have third : Reachable .ieee sampleStart :=
    .step second (.engine _ _ _ (Toolchain.simulated_faithful "cc" .working 0))
  exact .step third (.materialize _ 0 sampleEngine rfl sampleTotal (by decide))

/-- The engine makes the kernel of the total and runs it. -/
theorem found_sample
    : ∃ node,
        (sample.desk.workspace.graph 0).nodes[1]? = some node
        ∧ node.dtype = .float32
        ∧ node.layout = .dense []
        ∧ node.computed = true := by
  have kept
      : (sample.desk.workspace.graph 0).nodes[1]?.map
            (fun node => (node.dtype, node.layout, node.computed))
        = some (.float32, .dense [], true) := by
    decide +kernel
  obtain ⟨node, found, same⟩ := Option.map_eq_some_iff.mp kept
  simp only [Prod.mk.injEq] at same
  exact ⟨node, found, same⟩

end Workbench

end LazyTensor
