import LazyTensor.Proofs.Engine.Atomicity
import LazyTensor.Proofs.Schedule.Resumption
import Mathlib.Logic.Relation

/-! Work that is taken up again. A step of a plan that succeeds marks its target and no other node,
and one that fails marks none. So whatever its kernels are and wherever it stops, a run of a schedule
has computed the targets of its first tasks, and the schedule that is made next lists the others.
-/

namespace LazyTensor

variable {arith : Arithmetic}

/-- A node is the target of one of the tasks. -/
def Schedule.Targets (schedule : Schedule) (id position : Nat) : Prop :=
  ∃ task ∈ schedule, task.target.At id position

-----------------------------------------------------------------------------------------
-- Marks
-----------------------------------------------------------------------------------------

namespace Graph

/-- Taking memory marks nothing, however it ends. -/
theorem isComputed_allocate (graph : Graph) (position other : Nat)
    : (outcome (allocate position) graph).2.isComputed other = graph.isComputed other := by
  refine Ends.final (fun final : Graph => final.isComputed other = graph.isComputed other)
    ((allocate_ends position graph).mono ?_ ?_)
  · exact fun _ _ allocates => allocates.isComputed_eq other
  · exact fun _ _ same => same ▸ rfl

/-- Marking a node with memory marks this node and no other. -/
theorem isComputed_finished_iff {graph : Graph} {position : Nat}
    (allocated : graph.isAllocated position = true) (other : Nat)
    : (graph.updateNode position Node.finished).isComputed other = true
      ↔ graph.isComputed other = true ∨ other = position := by
  by_cases same : other = position
  · subst same
    simp [isComputed_finished allocated]
  · rw [isComputed, updateNode, Array.getElem?_modify, if_neg (Ne.symm same)]
    simp [same, isComputed]

end Graph

namespace Workspace

/-- Of the nodes exactly those that are touched have been computed in addition. -/
def ComputedBy (touched : Nat → Nat → Prop) (old new : Workspace) : Prop :=
  ∀ id position,
    (new.graph id).isComputed position = true
    ↔ (old.graph id).isComputed position = true ∨ touched id position

variable {touched more : Nat → Nat → Prop} {workspace : Workspace}

/-- Nothing has been computed where all marks are as they were. -/
theorem computedBy_none {old new : Workspace}
    (same : ∀ id position, (new.graph id).isComputed position = (old.graph id).isComputed position)
    : ComputedBy (fun _ _ => False) old new := by
  intro id position
  rw [same id position, or_false]

theorem ComputedBy.trans {first second third : Workspace} (left : ComputedBy touched first second)
    (right : ComputedBy more second third)
    : ComputedBy (fun id position => touched id position ∨ more id position) first third := by
  intro id position
  rw [right id position, left id position, or_assoc]

theorem ComputedBy.congr {old new : Workspace} (computed : ComputedBy touched old new)
    (same : ∀ id position, touched id position ↔ more id position)
    : ComputedBy more old new := by
  intro id position
  rw [computed id position, same id position]

end Workspace

open Workspace

/-- A step on one graph ends as it does on the graph, and leaves the workspace as it is built. -/
theorem Execution.ends_onGraph {α : Type} {id : Nat} {step : Build α} {workspace : Workspace}
    {done : α → Workspace → Prop} {failed : EngineError → Workspace → Prop}
    : Ends (onGraph id step) workspace done failed
      ↔ match (outcome step (workspace.graph id)).1 with
        | .ok value => done value (workspace.build id step).2
        | .error cause => failed (.graph cause) (workspace.build id step).2 := by
  rw [← Workspace.build_fst]
  simp only [onGraph, ends_bind, ends_get, ends_set]
  rcases (workspace.build id step).1 with cause | value <;> rfl

/-- Taking memory computes nothing. -/
theorem Execution.allocate_computes (id position : Nat) (workspace : Workspace)
    : Ends (onGraph id (Graph.allocate position)) workspace
        (fun _ final => workspace.ComputedBy (fun _ _ => False) final)
        (fun _ final => workspace.ComputedBy (fun _ _ => False) final) := by
  have none : workspace.ComputedBy (fun _ _ => False)
      (workspace.build id (Graph.allocate position)).2 := by
    apply computedBy_none
    intro other node
    rw [graph_build]
    split
    · next same => rw [same.1, Graph.isComputed_allocate]
    · rfl
  exact (onGraph_final id _ workspace).mono (fun _ _ same => same ▸ none)
    fun _ _ same => same ▸ none

/-- Elements that are overwritten are not computed by that. -/
theorem Workspace.computedBy_withStorage (workspace : Workspace) (buffer : Buffer)
    (storage : Storage)
    : workspace.ComputedBy (fun _ _ => False) (workspace.withStorage buffer storage) := by
  apply computedBy_none
  intro id position
  rw [graph_withStorage]
  split
  · exact Graph.isComputed_stored _ _ _ _
  · rfl

/-- Marking computes one node, or none if it fails. -/
theorem Execution.markComputed_computes (buffer : Buffer) (workspace : Workspace)
    : Ends (onGraph buffer.graph (Graph.markComputed buffer.node)) workspace
        (fun _ final => workspace.ComputedBy buffer.At final)
        (fun _ final => workspace.ComputedBy (fun _ _ => False) final) := by
  have ends := Graph.markComputed_ends buffer.node (workspace.graph buffer.graph)
  rw [ends_onGraph]
  split
  · next given =>
      obtain ⟨allocated, same⟩ := ends.of_ok given
      obtain ⟨_, had⟩ := Option.isSome_iff_exists.mp allocated
      obtain ⟨_, found, _⟩ := Option.bind_eq_some_iff.mp had
      have present := lt_size_of_found found
      intro id position
      rw [graph_build]
      by_cases own : id = buffer.graph
      · subst own
        have here : buffer.At buffer.graph position ↔ position = buffer.node :=
          ⟨fun shows => shows.2.symm, fun own => ⟨rfl, own.symm⟩⟩
        rw [if_pos ⟨rfl, present⟩, same, Graph.isComputed_finished_iff allocated, here]
      · rw [if_neg fun both => own both.1]
        simp [Buffer.At, Ne.symm own]
  · next given =>
      have same := ends.of_error given
      apply computedBy_none
      intro id position
      rw [graph_build]
      split
      · next own => rw [same, own.1]
      · rfl

-----------------------------------------------------------------------------------------
-- Plans
-----------------------------------------------------------------------------------------

/-- A step of a plan computes its target, or nothing if it fails, whatever its kernel is. -/
theorem PlanStep.execute_computes (step : PlanStep) (workspace : Workspace)
    : Ends (step.execute arith) workspace
        (fun _ final => workspace.ComputedBy step.task.target.At final)
        (fun _ final => workspace.ComputedBy (fun _ _ => False) final) := by
  have unchanged : workspace.ComputedBy (fun _ _ => False) workspace :=
    computedBy_none fun _ _ => rfl
  simp only [execute, ends_bind, ends_get]
  split
  · next final =>
      intro id position
      constructor
      · exact Or.inl
      · intro either
        rcases either with before | ⟨rfl, rfl⟩
        · exact before
        · exact final
  · simp only [ends_bind, ends_liftExcept]
    split
    · refine (Execution.allocate_computes _ _ workspace).mono ?_ (fun _ _ none => none)
      intro out middle taken
      split
      · next written _ =>
          have filled := taken.trans (middle.computedBy_withStorage step.task.target written)
          refine (Execution.markComputed_computes step.task.target _).mono ?_ ?_
          · intro _ final marked
            exact (filled.trans marked).congr fun _ _ => by simp
          · intro _ final marked
            exact (filled.trans marked).congr fun _ _ => by simp
      · exact taken
    · exact unchanged

/-- A plan computes the targets of its first steps, of all unless it fails, by induction on the
plan.
-/
theorem Plan.run_computes (plan : Plan) (workspace : Workspace)
    : Ends (plan.run arith) workspace
        (fun _ final => workspace.ComputedBy (Schedule.Targets (plan.map PlanStep.task)) final)
        (fun _ final =>
          ∃ count < plan.length,
            workspace.ComputedBy (Schedule.Targets ((plan.map PlanStep.task).take count))
              final) := by
  induction plan generalizing workspace with
  | nil => exact (computedBy_none fun _ _ => rfl).congr fun _ _ => by simp [Schedule.Targets]
  | cons step rest ih =>
      simp only [run, ends_bind]
      refine (step.execute_computes workspace).mono ?_ ?_
      · intro _ middle first
        refine (ih middle).mono ?_ ?_
        · intro _ final others
          exact (first.trans others).congr fun _ _ => by simp [Schedule.Targets]
        · intro _ final stopped
          obtain ⟨count, few, others⟩ := stopped
          refine ⟨count + 1, Nat.succ_lt_succ few, ?_⟩
          exact (first.trans others).congr fun _ _ => by simp [Schedule.Targets]
      · intro _ final none
        exact ⟨0, Nat.zero_lt_succ _, none.congr fun _ _ => by simp [Schedule.Targets]⟩

-----------------------------------------------------------------------------------------
-- Schedules that are executed
-----------------------------------------------------------------------------------------

namespace Desk

variable {desk later : Desk}

/-- Steps lead the graphs on, by induction on them. -/
theorem Reachable.of_steps (reached : desk.Reachable)
    (steps : Relation.ReflTransGen Desk.Step desk later)
    : later.Reachable ∧ desk.workspace.Extends later.workspace := by
  induction steps with
  | refl => exact ⟨reached, .refl _⟩
  | tail _ step ih =>
      obtain ⟨before, extends_⟩ := ih
      exact ⟨.step before step, extends_.trans (before.wellFormed.step_extends step)⟩

/-- Whatever engine and host recorded tasks are executed on, callers could have come to the graphs
that are left, and the targets of the first tasks have been computed: of all tasks, unless executing
them fails.
-/
theorem Reachable.execute_computes (reached : desk.Reachable) {tasks : List Task}
    (recorded : ∀ task ∈ tasks, task.Recorded desk.workspace) (engine : Engine) (host : Host)
    : Ends (Machine.execute arith tasks) ⟨desk.workspace, engine, host⟩
        (fun _ final =>
          desk.Leads final.workspace
          ∧ desk.workspace.ComputedBy (Schedule.Targets tasks) final.workspace)
        (fun _ final =>
          desk.Leads final.workspace
          ∧ ∃ count < tasks.length,
              desk.workspace.ComputedBy (Schedule.Targets (tasks.take count)) final.workspace) := by
  have unchanged : desk.workspace.ComputedBy (Schedule.Targets []) desk.workspace :=
    (computedBy_none fun _ _ => rfl).congr fun _ _ => by simp [Schedule.Targets]
  cases tasks with
  | nil => exact ⟨reached.leads, unchanged⟩
  | cons task rest =>
      simp only [Machine.execute, Machine.prepare, Machine.run, ends_bind, Machine.ends_making,
        Machine.ends_executing]
      refine (Workshop.prepare_tasks (task :: rest) _).mono ?_
        (fun _ _ _ => ⟨reached.leads, 0, Nat.zero_lt_succ _, unchanged⟩)
      intro plan shop same
      have listed : ∀ step ∈ plan, step.task.Recorded desk.workspace := fun step member =>
        recorded _ (same ▸ List.mem_map_of_mem member)
      have length : plan.length = (task :: rest).length := by rw [← same, List.length_map]
      have computes : Ends (plan.run arith) desk.workspace _ _ := plan.run_computes desk.workspace
      rw [same, length] at computes
      exact (reached.run_leads listed).and computes

/-- A schedule that is made after the targets of the first tasks of an earlier one were computed, and
no other nodes, lists the other tasks of that one.
-/
theorem Reachable.schedule_eq_drop (reached : desk.Reachable) {buffer : Buffer}
    (held : buffer ∈ desk.buffers) {schedule : Schedule}
    (made : (desk.workspace.graph buffer.graph).schedule buffer.node = .ok schedule)
    {workspace : Workspace} (leads : desk.Leads workspace) {count : Nat}
    (computed : desk.workspace.ComputedBy (Schedule.Targets (schedule.take count)) workspace)
    : (workspace.graph buffer.graph).schedule buffer.node = .ok (schedule.drop count) := by
  obtain ⟨_, _, node, found, _⟩ := reached.wellFormed.buffers buffer held
  have inside := (Array.getElem?_eq_some_iff.mp found).1
  obtain ⟨own, wf⟩ := reached.wellFormed.workspace buffer.graph
  obtain ⟨other, scheduled, contract⟩ := wf.schedule_ok inside
  obtain rfl := Except.ok.inj (made.symm.trans scheduled)
  have marks
      : (desk.workspace.graph buffer.graph).ComputedBy (schedule.firstTargets count)
          (workspace.graph buffer.graph) := by
    intro position _
    rw [computed buffer.graph position, Schedule.mem_firstTargets]
    refine or_congr_right ⟨?_, ?_⟩
    · intro target
      obtain ⟨task, first, shows⟩ := target
      exact ⟨task, first, shows.2⟩
    · intro target
      obtain ⟨task, first, same⟩ := target
      exact ⟨task, first, (contract.recorded own task (List.mem_of_mem_take first)).1, same⟩
  rw [← contract.without_take count]
  exact marks.schedule_eq (leads.extends_ buffer.graph) wf
    (leads.reached.wellFormed.workspace buffer.graph).2 inside made (contract.closed_take count)

/-- Work is taken up where it was left. On every desk that callers can come to, each buffer that is
held has a schedule. When later on some of its targets have been computed and no other nodes, and
with each of them its sources that waited, then the schedule that is made lists the other tasks,
as they were and in their order. When the schedule is executed, on whatever engine and host, the
targets of its first tasks are computed, of all tasks unless this fails, and the schedule that is
made next lists the rest.
-/
theorem Reachable.schedule_resumes (reached : desk.Reachable) {buffer : Buffer}
    (held : buffer ∈ desk.buffers)
    : ∃ schedule : Schedule,
        (desk.workspace.graph buffer.graph).schedule buffer.node = .ok schedule
        ∧ (∀ (later : Desk) (chosen : Finset Nat),
            Relation.ReflTransGen Desk.Step desk later →
            schedule.Closed (desk.workspace.graph buffer.graph) chosen →
            (desk.workspace.graph buffer.graph).ComputedBy chosen
              (later.workspace.graph buffer.graph) →
            (later.workspace.graph buffer.graph).schedule buffer.node
              = .ok (schedule.without chosen))
        ∧ ∀ (engine : Engine) (host : Host) (arith : Arithmetic) (result : Except EngineError Unit)
            (final : Machine),
            outcome (Machine.execute arith schedule) ⟨desk.workspace, engine, host⟩
              = (result, final) →
            ∃ count ≤ schedule.length,
              desk.workspace.ComputedBy (Schedule.Targets (schedule.take count)) final.workspace
              ∧ (result = .ok () ↔ count = schedule.length)
              ∧ (final.workspace.graph buffer.graph).schedule buffer.node
                = .ok (schedule.drop count) := by
  obtain ⟨_, _, node, found, _⟩ := reached.wellFormed.buffers buffer held
  have inside := (Array.getElem?_eq_some_iff.mp found).1
  obtain ⟨own, wf⟩ := reached.wellFormed.workspace buffer.graph
  obtain ⟨schedule, made, contract⟩ := wf.schedule_ok inside
  refine ⟨schedule, made, ?_, ?_⟩
  · intro later chosen steps closed marks
    obtain ⟨after, extends_⟩ := reached.of_steps steps
    exact marks.schedule_eq (extends_ buffer.graph) wf
      (after.wellFormed.workspace buffer.graph).2 inside made closed
  · intro engine host arith result final ran
    have recorded : ∀ task ∈ schedule, task.Recorded desk.workspace :=
      fun task member => (contract.recorded own task member).2
    have ends := (reached.execute_computes recorded engine host).of_run ran
    cases result with
    | ok _ =>
        obtain ⟨leads, computed⟩ := ends
        rw [← List.take_length (l := schedule)] at computed
        exact ⟨schedule.length, Nat.le_refl _, computed, by simp,
          reached.schedule_eq_drop held made leads computed⟩
    | error cause =>
        obtain ⟨leads, count, few, computed⟩ := ends
        exact ⟨count, few.le, computed, by simp [few.ne],
          reached.schedule_eq_drop held made leads computed⟩

/-- The sample after memory was taken for the row and the row was marked. -/
def sampleBegun : Desk := (sample.change 0 (Graph.allocate 0)).change 0 (Graph.markComputed 0)

theorem executed_sampleFresh
    : (outcome (Machine.execute .ieee [ones, negation 1, sums]) sampleFresh).1 = .ok () := by
  decide +kernel

/-- Once the row is computed the negated rows and the sums are left, and nothing is left once the
whole schedule was executed.
-/
theorem schedule_resumes_sample
    : sampleSums ∈ sample.buffers
      ∧ (sampleBegun.workspace.graph 0).schedule 2 = .ok [negation 1, sums]
      ∧ ∃ final,
          outcome (Machine.execute .ieee [ones, negation 1, sums]) sampleFresh = (.ok (), final)
          ∧ (final.workspace.graph 0).schedule 2 = .ok [] := by
  have held : sampleSums ∈ sample.buffers := by decide
  obtain ⟨schedule, made, resumes, executes⟩ := reachable_sample.schedule_resumes held
  obtain rfl : [ones, negation 1, sums] = schedule := Except.ok.inj ((Eq.refl _).trans made)
  have steps : Relation.ReflTransGen Desk.Step sample sampleBegun :=
    .tail (.single (.allocate sample 0 0)) (.markComputed _ 0 0)
  have closed
      : Schedule.Closed (sample.workspace.graph 0) [ones, negation 1, sums] {0} :=
    ⟨by decide, by decide⟩
  have marks
      : (sample.workspace.graph 0).ComputedBy {0} (sampleBegun.workspace.graph 0) := by
    decide
  have left := resumes sampleBegun {0} steps closed marks
  let final := (outcome (Machine.execute .ieee [ones, negation 1, sums]) sampleFresh).2
  have ran
      : outcome (Machine.execute .ieee [ones, negation 1, sums]) sampleFresh = (.ok (), final) :=
    Prod.ext executed_sampleFresh rfl
  obtain ⟨count, _, _, whole, rest⟩ := executes _ _ _ _ _ ran
  obtain rfl := whole.mp rfl
  exact ⟨held, left, final, ran, rest⟩

end Desk

end LazyTensor
