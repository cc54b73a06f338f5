import LazyTensor.Proofs.Engine.Lifecycle
import LazyTensor.Proofs.Engine.Workbench
import Mathlib.Logic.Relation

/-! Runs in which callers do as they like. They mark nodes themselves, start engines with compilers that
lie, make kernels for any tasks of the schedules that they hold and execute them in any order and any
number of times, while others change the files on the host. All nodes live on as they should.
-/

namespace LazyTensor

variable {arith : Arithmetic}

namespace Machine

variable {machine : Machine}

/-- Executing any tasks lets all nodes live on, however it ends. -/
theorem execute_livesOn (wf : machine.workspace.WellFormed) (tasks : List Task)
    : Ends (execute arith tasks) machine
        (fun _ final => machine.workspace.LivesOn arith final.workspace)
        (fun _ final => machine.workspace.LivesOn arith final.workspace) := by
  simp only [execute, prepare, run, ends_bind, ends_making, ends_executing]
  exact .of_forall (fun plan _ => plan.run_livesOn wf) fun _ _ => wf.livesOn

/-- Computing a buffer lets all nodes live on, however it ends. -/
theorem materialize_livesOn (wf : machine.workspace.WellFormed) (buffer : Buffer)
    : Ends (materialize arith buffer) machine
        (fun _ final => machine.workspace.LivesOn arith final.workspace)
        (fun _ final => machine.workspace.LivesOn arith final.workspace) := by
  simp only [materialize, ends_bind, ends_get]
  split
  · exact wf.livesOn
  · next schedule _ =>
      simp only [ends_bind]
      refine (execute_livesOn wf schedule).mono ?_ (fun _ _ lives => lives)
      intro _ middle lives
      rw [ends_executing]
      exact (Execution.allocate_livesOn (lives.later wf).1 _ _).mono
        (fun _ _ taken => lives.trans taken.1) fun _ _ => lives.trans

end Machine

namespace Desk

/-- A desk as it is later: it keeps to the rules and all nodes live on. -/
structure LivesOn (arith : Arithmetic) (old new : Desk) : Prop where
  wellFormed : new.WellFormed
  workspace : old.workspace.LivesOn arith new.workspace

theorem WellFormed.livesOn {desk : Desk} (wf : desk.WellFormed) {workspace : Workspace}
    (lives : desk.workspace.LivesOn arith workspace)
    : desk.LivesOn arith (desk.withWorkspace workspace) :=
  ⟨wf.later (lives.later wf.workspace), lives⟩

theorem LivesOn.trans {first second third : Desk} (left : first.LivesOn arith second)
    (right : second.LivesOn arith third)
    : first.LivesOn arith third :=
  ⟨right.wellFormed, left.workspace.trans right.workspace⟩

end Desk

namespace Workbench

/-- One step of a caller who may do more. -/
inductive Move (arith : Arithmetic) : Workbench → Workbench → Prop
  | step {bench next : Workbench} (taken : bench.Step arith next) : Move arith bench next
  /-- A node is marked by hand. -/
  | markComputed (bench : Workbench) (id position : Nat)
    : Move arith bench { bench with desk := bench.desk.change id (Graph.markComputed position) }
  /-- An engine is started with a toolchain that may do anything. -/
  | engine (bench : Workbench) (settings : Settings) (toolchain : Toolchain)
    : Move arith bench { bench with engines := .start settings toolchain :: bench.engines }
  /-- Kernels are made for any tasks of schedules that are held. -/
  | prepare (bench : Workbench) (number : Nat) (engine : Engine)
    (found : bench.engines[number]? = some engine) (tasks : List Task)
    (held : ∀ task ∈ tasks, ∃ schedule ∈ bench.schedules, task ∈ schedule)
    : Move arith bench (bench.prepare number engine tasks)
  /-- Any tasks of schedules that are held are executed. -/
  | execute (bench : Workbench) (number : Nat) (engine : Engine)
    (found : bench.engines[number]? = some engine) (tasks : List Task)
    (held : ∀ task ∈ tasks, ∃ schedule ∈ bench.schedules, task ∈ schedule)
    : Move arith bench
        (bench.withMachine number
          (outcome (Machine.execute arith tasks) (bench.machine engine)).2)
  /-- The host changes. -/
  | outside (bench : Workbench) (host : Host) : Move arith bench { bench with host }

variable {bench next : Workbench}

/-- Making kernels changes nothing on the desk. -/
theorem desk_prepare (bench : Workbench) (number : Nat) (engine : Engine) (tasks : List Task)
    : (bench.prepare number engine tasks).desk = bench.desk := by
  have same : (outcome (Machine.prepare tasks) (bench.machine engine)).2.workspace
      = bench.desk.workspace := by
    rw [Machine.prepare, Machine.outcome_making]
    rfl
  rw [prepare]
  generalize outcome (Machine.prepare tasks) (bench.machine engine) = ran at same ⊢
  obtain ⟨cause | plan, machine⟩ := ran
  · exact congrArg bench.desk.withWorkspace same
  · exact congrArg bench.desk.withWorkspace same

/-- A step that engines and builders take lets all nodes live on, however it ends. -/
theorem Step.livesOn (wf : bench.desk.WellFormed) (step : bench.Step arith next)
    : bench.desk.LivesOn arith next.desk := by
  cases step with
  | addGraph =>
      refine ⟨wf.step (.addGraph _), fun id => ?_⟩
      change Graph.LivesOn arith _ (bench.desk.workspace.addGraph.graph id)
      rw [Workspace.graph_addGraph]
      exact wf.workspace.livesOn id
  | call call present held =>
      refine ⟨wf.call call present held, ?_⟩
      obtain ⟨own, graphWf⟩ := wf.workspace call.graph
      change Workspace.LivesOn arith _ (bench.desk.call call).workspace
      rw [Desk.workspace_call]
      exact wf.workspace.livesOn_build
        (BuildCall.step_livesOn graphWf own.symm (wf.operands_in held))
  | node id position buffer found =>
      exact ⟨wf.step (.node _ id position buffer found), wf.workspace.livesOn⟩
  | source id position node operation source found made member =>
      exact ⟨wf.step (.source _ id position node operation source found made member),
        wf.workspace.livesOn⟩
  | allocate id position =>
      exact wf.livesOn (wf.workspace.livesOn_build
        (Graph.allocate_livesOn (wf.workspace id).2 position))
  | serve id memory =>
      exact wf.livesOn (wf.workspace.livesOn_build
        (Graph.serve_livesOn (wf.workspace id).2 memory))
  | schedule | engine | close => exact wf.livesOn wf.workspace.livesOn
  | prepare number engine found schedule held =>
      rw [desk_prepare]
      exact wf.livesOn wf.workspace.livesOn
  | execute number engine found schedule held =>
      have ends : Ends (Machine.execute arith schedule) (bench.machine engine) _ _ :=
        Machine.execute_livesOn wf.workspace schedule
      exact wf.livesOn (ends.final _)
  | materialize number engine found buffer held =>
      have ends : Ends (Machine.materialize arith buffer) (bench.machine engine) _ _ :=
        Machine.materialize_livesOn wf.workspace buffer
      exact wf.livesOn (ends.final _)
  | run plan held => exact wf.livesOn ((plan.run_livesOn wf.workspace).final _)

/-- A move lets all nodes live on, however it ends. -/
theorem Move.livesOn (wf : bench.desk.WellFormed) (move : bench.Move arith next)
    : bench.desk.LivesOn arith next.desk := by
  cases move with
  | step taken => exact taken.livesOn wf
  | markComputed id position =>
      exact wf.livesOn (wf.workspace.livesOn_build
        (Graph.markComputed_livesOn (wf.workspace id).2 position))
  | engine | outside => exact wf.livesOn wf.workspace.livesOn
  | prepare number engine found tasks held =>
      rw [desk_prepare]
      exact wf.livesOn wf.workspace.livesOn
  | execute number engine found tasks held =>
      have ends : Ends (Machine.execute arith tasks) (bench.machine engine) _ _ :=
        Machine.execute_livesOn wf.workspace tasks
      exact wf.livesOn (ends.final _)

/-- All nodes live on, by induction on the moves. -/
theorem livesOn_of_moves (wf : bench.desk.WellFormed)
    (moves : Relation.ReflTransGen (Move arith) bench next)
    : bench.desk.LivesOn arith next.desk := by
  induction moves with
  | refl => exact wf.livesOn wf.workspace.livesOn
  | tail _ move ih => exact ih.trans (move.livesOn ih.wellFormed)

/-- Between two states of a run of moves every node stays at its place and lives on. In the later one
it has memory if it is computed, and its memory, if it has any, is of its element type and its size
and is what is had when memory is taken again. A step of a plan touches its target only.
-/
theorem node_livesOn_of_moves {bench later : Workbench}
    (reached : Relation.ReflTransGen (Move arith) .start bench)
    (moves : Relation.ReflTransGen (Move arith) bench later)
    : (∀ (id position : Nat) (node : Node),
        (bench.desk.workspace.graph id).nodes[position]? = some node →
          ∃ next,
            (later.desk.workspace.graph id).nodes[position]? = some next
            ∧ node.LivesOn arith next
            ∧ (next.computed = true → next.storage.isSome = true)
            ∧ ∀ storage, next.storage = some storage →
                storage.dtype = next.dtype
                ∧ storage.size = next.layout.physicalSize
                ∧ outcome (Graph.allocate position) (later.desk.workspace.graph id)
                  = (.ok storage, later.desk.workspace.graph id))
      ∧ ∀ step : PlanStep,
          later.desk.workspace.SameOutside step.task.target.At
            (outcome (step.execute arith) later.desk.workspace).2 := by
  have first := livesOn_of_moves Desk.wellFormed_start reached
  have lives := livesOn_of_moves first.wellFormed moves
  refine ⟨?_, fun step => (step.execute_sameOutside later.desk.workspace).final _⟩
  intro id position node found
  obtain ⟨next, foundNext, livesOn⟩ := (lives.workspace id).nodes position node found
  have wf := (lives.wellFormed.workspace id).2 position next foundNext
  refine ⟨next, foundNext, livesOn, wf.computed, ?_⟩
  intro storage had
  obtain ⟨type, size⟩ := wf.storage storage had
  exact ⟨type, size, Graph.outcome_allocate foundNext had⟩

/-- The total is computed and another engine is started. -/
def sampleAgain : Workbench := { sample with engines := sampleEngine :: sample.engines }

/-- The total after it was materialized on the other engine, too. -/
def sampleLast : Workbench :=
  sampleAgain.withMachine 0
    (outcome (Machine.materialize .ieee sampleTotal) (sampleAgain.machine sampleEngine)).2

/-- The total is still what it was. -/
theorem node_livesOn_of_moves_sample
    : ∃ node next,
        (sample.desk.workspace.graph 0).nodes[1]? = some node
        ∧ (sampleLast.desk.workspace.graph 0).nodes[1]? = some next
        ∧ next.computed = true
        ∧ next.storage = node.storage := by
  have moves {bench next : Workbench} (step : bench.Step .ieee next)
      : Relation.ReflTransGen (Move .ieee) bench next :=
    .single (.step step)
  have data : Relation.ReflTransGen (Move .ieee) .start (start.call sampleCalls[0]) :=
    moves (.call _ _ (by decide) (by decide))
  have calls := data.trans (moves (.call _ sampleCalls[1] (by decide) (by decide)))
  have ready : Relation.ReflTransGen (Move .ieee) .start sampleStart :=
    calls.tail (.engine _ _ _)
  have reached : Relation.ReflTransGen (Move .ieee) .start sample :=
    ready.trans (moves (.materialize _ 0 sampleEngine rfl sampleTotal (by decide)))
  have again : Relation.ReflTransGen (Move .ieee) sample sampleAgain := .single (.engine _ _ _)
  have held : sampleTotal ∈ sampleAgain.desk.buffers := by
    change sampleTotal ∈ sampleStart.desk.buffers
    decide
  have last := again.trans (moves (.materialize _ 0 sampleEngine rfl sampleTotal held))
  obtain ⟨node, found, _, _, computed⟩ := found_sample
  obtain ⟨next, foundNext, lives, _⟩ := (node_livesOn_of_moves reached last).1 0 1 node found
  exact ⟨node, next, found, foundNext, lives.final computed⟩

end Workbench

end LazyTensor
