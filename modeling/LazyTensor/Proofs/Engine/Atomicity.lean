import LazyTensor.Proofs.Engine.Completion
import LazyTensor.Proofs.Engine.Filling

/-! Work that fails. All kernels are made before a plan runs, so what goes wrong with a kernel leaves
the graphs as they are. A plan then stops where a source is not computed or memory is wanting. No
kernel of a plan refuses the storage that it is called with, so the target of the step at which the
plan stops is never left with memory that it did not have, and all targets before it are computed and
hold what their kernels leave.
-/

namespace LazyTensor

-----------------------------------------------------------------------------------------
-- Kernels that cannot be made
-----------------------------------------------------------------------------------------

namespace Workshop

/-- Of some tasks, the kernel of one cannot be made when those of all tasks before it were. -/
def StopsAt (shop : Workshop) (tasks : List Task) (cause : EngineError) (final : Workshop) : Prop :=
  ∃ before task after plan middle,
    tasks = before ++ task :: after
    ∧ outcome (prepare before) shop = (.ok plan, middle)
    ∧ outcome (prepareTask task) middle = (.error cause, final)

variable {shop middle final : Workshop} {task : Task} {rest : List Task} {step : PlanStep}
  {cause : EngineError}

/-- After the kernel of the first task the others are made. -/
theorem outcome_prepare_cons_ok (made : outcome (prepareTask task) shop = (.ok step, middle))
    : outcome (prepare (task :: rest)) shop
      = match outcome (prepare rest) middle with
        | (.ok plan, final) => (.ok (step :: plan), final)
        | (.error cause, final) => (.error cause, final) := by
  unfold prepare
  rw [List.mapM_cons, outcome_bind, made]
  simp only [outcome_bind]
  rcases outcome (List.mapM prepareTask rest) middle with ⟨cause | plan, final⟩ <;> rfl

theorem outcome_prepare_cons_error
    (failed : outcome (prepareTask task) shop = (.error cause, final))
    : outcome (prepare (task :: rest)) shop = (.error cause, final) := by
  unfold prepare
  rw [List.mapM_cons, outcome_bind, failed]

/-- After the kernels of some tasks those of the others are made. -/
theorem outcome_prepare_append {before rest : List Task} {plan : Plan}
    (made : outcome (prepare before) shop = (.ok plan, middle))
    : outcome (prepare (before ++ rest)) shop
      = match outcome (prepare rest) middle with
        | (.ok others, final) => (.ok (plan ++ others), final)
        | (.error cause, final) => (.error cause, final) := by
  unfold prepare at made ⊢
  rw [List.mapM_append, outcome_bind, made]
  simp only [outcome_bind]
  rcases outcome (List.mapM prepareTask rest) middle with ⟨cause | others, final⟩ <;> rfl

/-- If not all kernels can be made, then the kernel of some task cannot, by induction on the tasks.
-/
theorem stopsAt_of_prepare {tasks : List Task}
    (failed : outcome (prepare tasks) shop = (.error cause, final))
    : shop.StopsAt tasks cause final := by
  induction tasks generalizing shop with
  | nil => cases failed
  | cons task rest ih =>
      rcases made : outcome (prepareTask task) shop with ⟨first | step, middle⟩
      · rw [outcome_prepare_cons_error made] at failed
        cases failed
        exact ⟨[], task, rest, [], shop, rfl, rfl, made⟩
      · rw [outcome_prepare_cons_ok made] at failed
        rcases rests : outcome (prepare rest) middle with ⟨later | plan, last⟩
        · rw [rests] at failed
          obtain ⟨before, stop, after, plan, between, rfl, others, stopped⟩ :=
            ih (rests.trans failed)
          refine ⟨task :: before, stop, after, step :: plan, between, rfl, ?_, stopped⟩
          rw [outcome_prepare_cons_ok made, others]
        · rw [rests] at failed
          cases failed

/-- Kernels cannot be made for the cause for which the first of them cannot. -/
theorem outcome_prepare_eq_error {tasks : List Task}
    : outcome (prepare tasks) shop = (.error cause, final) ↔ shop.StopsAt tasks cause final := by
  refine ⟨stopsAt_of_prepare, ?_⟩
  rintro ⟨before, task, after, plan, middle, rfl, made, stopped⟩
  rw [outcome_prepare_append made, outcome_prepare_cons_error stopped]

end Workshop

-----------------------------------------------------------------------------------------
-- Steps that stop
-----------------------------------------------------------------------------------------

namespace PlanStep

/-- Why a step stops: one of its sources is not computed, or memory is wanting. -/
def Stuck (workspace : Workspace) (step : PlanStep) (cause : EngineError) : Prop :=
  (∃ source ∈ step.task.sources,
    (workspace.graph source.graph).isComputed source.node = false
    ∧ cause = .sourceNotComputed step.kernel.name source.node)
  ∨ cause.ofMemory

/-- Sources cannot be had if one of them is not final, by induction on them. -/
theorem sources_eq_error {step : PlanStep} {workspace : Workspace} {cause : EngineError}
    (failed : step.sources workspace = .error cause)
    : ∃ source ∈ step.task.sources,
        workspace.finished? source = none
        ∧ cause = .sourceNotComputed step.kernel.name source.node := by
  rw [sources] at failed
  generalize step.task.sources = recorded at failed ⊢
  induction recorded with
  | nil => cases failed
  | cons source rest ih =>
      rw [List.mapM_cons] at failed
      cases final : workspace.finished? source with
      | none =>
          simp only [final] at failed
          exact ⟨source, List.mem_cons_self, final, (Except.error.inj failed).symm⟩
      | some storage =>
          simp only [final] at failed
          generalize others : rest.mapM (m := Except EngineError) _ = result at failed
          cases result with
          | ok behind => cases failed
          | error other =>
              obtain rfl := Except.error.inj failed
              obtain ⟨behind, member, missing, same⟩ := ih others
              exact ⟨behind, List.mem_cons_of_mem _ member, missing, same⟩

variable {arith : Arithmetic} {workspace : Workspace}

/-- A step that can be called computes its target, or it is stuck and leaves the graphs as they
are.
-/
theorem execute_settles (wf : workspace.WellFormed) {step : PlanStep}
    (callable : step.Callable workspace)
    : Ends (step.execute arith) workspace
        (fun _ final =>
          workspace.Advances final
          ∧ (final.graph step.task.target.graph).isComputed step.task.target.node = true)
        (fun cause final =>
          step.Stuck workspace cause ∧ ∀ id, final.graph id = workspace.graph id) := by
  cases had : step.sources workspace with
  | ok storages =>
      obtain ⟨_, _, finished⟩ := sources_eq_ok had
      refine (execute_progress wf callable ?_).mono (fun _ _ done => done)
        fun _ _ short => ⟨Or.inr short.1, short.2⟩
      intro source member
      have final := finished source member
      rw [Workspace.finished?] at final
      split at final
      · next computed => exact computed
      · cases final
  | error cause =>
      obtain ⟨source, member, missing, same⟩ := sources_eq_error had
      simp only [execute, ends_bind, ends_get]
      split
      · next computed => exact ⟨wf.advances, computed⟩
      · simp only [ends_bind, ends_liftExcept, had]
        refine ⟨Or.inl ⟨source, member, Bool.eq_false_iff.mpr fun computed => ?_, same⟩,
          fun _ => trivial⟩
        obtain ⟨storage, found, _⟩ := wf.finished? (callable.recorded.has wf member).2.1 computed
        rw [missing] at found
        cases found

end PlanStep

-----------------------------------------------------------------------------------------
-- Plans that stop
-----------------------------------------------------------------------------------------

namespace Plan

/-- The targets of some steps are computed. -/
def Computed (plan : Plan) (workspace : Workspace) : Prop :=
  ∀ step ∈ plan, (workspace.graph step.task.target.graph).isComputed step.task.target.node = true

/-- How a plan runs: through all of its steps, or up to one that is stuck. Then the steps before it
have run, their targets are computed and hold what their kernels leave, the step left the graphs as
they came to it, and no node but those targets was touched.
-/
inductive Runs (arith : Arithmetic) (plan : Plan) (workspace : Workspace)
    : Except EngineError Unit → Workspace → Prop
  | through (final : Workspace) (computed : Plan.Computed plan final)
    (filled : Plan.Filled arith plan workspace final)
    (others : workspace.SameOutside plan.Targets final)
    : Runs arith plan workspace (.ok ()) final
  | upTo (before : Plan) (step : PlanStep) (after : Plan) (middle final : Workspace)
    (cause : EngineError) (split : plan = before ++ step :: after)
    (ran : outcome (Plan.run arith before) workspace = (.ok (), middle))
    (stopped : outcome (step.execute arith) middle = (.error cause, final))
    (stuck : step.Stuck middle cause) (computed : Plan.Computed before final)
    (filled : Plan.Filled arith before workspace final)
    (same : ∀ id, final.graph id = middle.graph id)
    (others : workspace.SameOutside before.Targets final)
    : Runs arith plan workspace (.error cause) final

variable {arith : Arithmetic} {workspace : Workspace}

theorem outcome_run_cons {step : PlanStep} {rest : Plan} {middle : Workspace}
    (done : outcome (step.execute arith) workspace = (.ok (), middle))
    : outcome (run arith (step :: rest)) workspace = outcome (run arith rest) middle := by
  rw [run, outcome_bind, done]

/-- A plan of steps that can be called runs through or up to a step that is stuck, by induction on
the plan.
-/
theorem runs (wf : workspace.WellFormed) {plan : Plan}
    (callable : ∀ step ∈ plan, step.Callable workspace) {result : Except EngineError Unit}
    {final : Workspace} (ran : outcome (plan.run arith) workspace = (result, final))
    : workspace.Advances final ∧ Runs arith plan workspace result final := by
  induction plan generalizing workspace with
  | nil =>
      cases ran
      exact ⟨wf.advances, .through _ (by simp [Computed]) (by simp [Filled]) (.refl _)⟩
  | cons step rest ih =>
      obtain ⟨first, others⟩ := List.forall_mem_cons.mp callable
      have settles : Ends (step.execute arith) workspace _ _ := step.execute_settles wf first
      have frame (part : Plan) : Ends (Plan.run arith part) workspace _ _ :=
        (run_filled wf part).and (part.run_sameOutside workspace)
      rcases stepped : outcome (step.execute arith) workspace with ⟨cause | _, middle⟩
      · obtain ⟨stuck, same⟩ := settles.of_run stepped
        rw [run, outcome_bind, stepped] at ran
        cases ran
        exact ⟨wf.advances_of_same same,
          .upTo [] step rest workspace final cause rfl rfl stepped stuck (by simp [Computed])
            (by simp [Filled]) same fun id _ _ => by rw [same id]⟩
      · obtain ⟨advances, target⟩ := settles.of_run stepped
        obtain ⟨onward, runs⟩ := ih advances.wellFormed
          (fun other member => (others other member).later advances.extends_ wf)
          ((outcome_run_cons stepped).symm.trans ran)
        have still := onward.computed _ _ target
        refine ⟨advances.trans onward, ?_⟩
        cases runs with
        | through _ computed _ _ =>
            obtain ⟨filled, untouched⟩ := (frame (step :: rest)).of_run ran
            exact .through final (List.forall_mem_cons.mpr ⟨still, computed⟩) filled untouched
        | upTo before stop after between _ cause split led stopped stuck computed _ same _ =>
            have came : outcome (Plan.run arith (step :: before)) workspace = (.ok (), between) :=
              (outcome_run_cons stepped).trans led
            obtain ⟨filled, untouched⟩ := (frame (step :: before)).of_run came
            exact .upTo (step :: before) stop after between final cause (by rw [split]; rfl) came
              stopped stuck (List.forall_mem_cons.mpr ⟨still, computed⟩) (filled.of_same same) same
              fun id position outside => by rw [same id, untouched id position outside]

end Plan

-----------------------------------------------------------------------------------------
-- Tasks that are executed
-----------------------------------------------------------------------------------------

namespace Machine

variable {arith : Arithmetic} {machine : Machine} {tasks : List Task} {shop : Workshop}

/-- Executing tasks whose kernels cannot be made fails for the same cause and reaches no graph. -/
theorem outcome_execute_of_stopsAt {cause : EngineError}
    (stops : machine.shop.StopsAt tasks cause shop)
    : outcome (execute arith tasks) machine = (.error cause, machine.withShop shop) := by
  rw [execute, outcome_bind, prepare, outcome_making,
    Workshop.outcome_prepare_eq_error.mpr stops]

/-- Executing tasks whose kernels can be made ends as their plan does. -/
theorem outcome_execute_of_prepared {plan : Plan}
    (made : outcome (Workshop.prepare tasks) machine.shop = (.ok plan, shop))
    : outcome (execute arith tasks) machine
      = ((outcome (plan.run arith) machine.workspace).1,
          { machine.withShop shop with
            workspace := (outcome (plan.run arith) machine.workspace).2 }) := by
  rw [execute, outcome_bind, prepare, outcome_making, made]
  exact outcome_executing _ _

end Machine

namespace Desk

/-- A task of a schedule that was made for a buffer on the desk, now or at an earlier time. -/
inductive Lists : Desk → Task → Prop
  | made {desk : Desk} (reached : desk.Reachable) (buffer : Buffer)
    (held : buffer ∈ desk.buffers) (schedule : Schedule)
    (made : (desk.workspace.graph buffer.graph).schedule buffer.node = .ok schedule) (task : Task)
    (member : task ∈ schedule)
    : Lists desk task
  | later {desk next : Desk} {task : Task} (lists : desk.Lists task) (step : desk.Step next)
    : Lists next task

/-- A task of a schedule stays recorded, by induction on the steps since the schedule was made. -/
theorem Lists.recorded {desk : Desk} {task : Task} (lists : desk.Lists task)
    : desk.Reachable ∧ task.Recorded desk.workspace := by
  induction lists with
  | made reached buffer held schedule made task member =>
      have wf := reached.wellFormed
      obtain ⟨other, scheduled, contract⟩ := wf.workspace.schedule_ok (wf.buffers buffer held)
      obtain rfl := Except.ok.inj (made.symm.trans scheduled)
      have own := (wf.workspace buffer.graph).1
      exact ⟨reached, (contract.recorded own task member).2⟩
  | later _ step ih =>
      have wf := ih.1.wellFormed
      exact ⟨.step ih.1 step, ih.2.later (wf.step_extends step) wf.workspace⟩

/-- Executing any tasks of schedules that were made on a desk, in any order and any number of times,
is done in two parts, whatever has been computed so far and whatever a cache was asked for before.
If the kernel of a task cannot be made, this is the error, and no graph has changed. Otherwise the
plan of the tasks runs through, or up to a step that is stuck: the targets before it are computed and
hold what their kernels leave, it leaves the graphs as they came to it, and no other node was touched.
-/
theorem Reachable.execute_atomic {desk : Desk} (reached : desk.Reachable) {tasks : List Task}
    (listed : ∀ task ∈ tasks, desk.Lists task) {settings : Settings} {log : List Service}
    {cache : Cache} (history : Cache.History settings log cache)
    (asked : ∀ service ∈ log, service.unit.Scheduled) (toolchain : Toolchain) (host : Host)
    (arith : Arithmetic) {result : Except EngineError Unit} {final : Machine}
    (ran
      : outcome (Machine.execute arith tasks)
          ⟨desk.workspace, ⟨settings, { cache with toolchain }⟩, host⟩
        = (result, final))
    : (∀ cause shop,
        Workshop.StopsAt ⟨{ cache with toolchain }, host⟩ tasks cause shop →
          result = .error cause ∧ final.workspace = desk.workspace)
      ∧ ((∀ cause shop, ¬ Workshop.StopsAt ⟨{ cache with toolchain }, host⟩ tasks cause shop) →
          ∃ plan,
            plan.map PlanStep.task = tasks
            ∧ Plan.Runs arith plan desk.workspace result final.workspace) := by
  let machine : Machine := ⟨desk.workspace, ⟨settings, { cache with toolchain }⟩, host⟩
  have wf := reached.wellFormed.workspace
  constructor
  · intro cause shop stops
    have failed : outcome (Machine.execute arith tasks) machine = _ :=
      Machine.outcome_execute_of_stopsAt stops
    obtain ⟨rfl, rfl⟩ := Prod.mk.inj (failed.symm.trans ran)
    exact ⟨rfl, rfl⟩
  · intro made
    have suits : machine.shop.cache.Suits := history.suits asked
    have each (task : Task) (member : task ∈ tasks) (shop : Workshop) (held : shop.cache.Suits)
        : Ends (Workshop.prepareTask task) shop _ _ :=
      Workshop.prepareTask_suits ((listed task member).recorded.2.fits wf) shop held
    have prepared := Workshop.prepare_ends each machine.shop suits
    rcases kernels : outcome (Workshop.prepare tasks) machine.shop with ⟨cause | plan, shop⟩
    · exact absurd (Workshop.outcome_prepare_eq_error.mp kernels) (made cause shop)
    · obtain ⟨_, same, suit⟩ := prepared.of_run kernels
      refine ⟨plan, same, ?_⟩
      have callable : ∀ step ∈ plan, step.Callable desk.workspace := by
        intro step member
        have own := (listed _ (same ▸ List.mem_map_of_mem member)).recorded.2
        exact ⟨own, (suit step member).1, (suit step member).2⟩
      have executed : outcome (Machine.execute arith tasks) machine = _ :=
        Machine.outcome_execute_of_prepared kernels
      obtain ⟨rfl, rfl⟩ := Prod.mk.inj (executed.symm.trans ran)
      exact (Plan.runs wf callable rfl).2

/-- The sample on an engine without kernels. -/
def sampleFresh : Machine :=
  ⟨sample.workspace,
    .start ⟨"cc", "-O2", "kernels", false⟩ (.simulated "cc" .working 0), .start⟩

/-- The ones twice and then the sums, for which the negated rows are missing. -/
def sampleTasks : List Task := [ones, ones, sums]

theorem executed_sample
    : (outcome (Workshop.prepare sampleTasks) sampleFresh.shop).1.isOk = true
      ∧ (outcome (Machine.execute .ieee sampleTasks) sampleFresh).1
        = .error (.sourceNotComputed sums.kernelName 1) := by
  decide +kernel

/-- A part of a schedule with a task twice runs up to the sums, whose source is not computed. -/
theorem execute_atomic_sample
    : (∀ task ∈ sampleTasks, sample.Lists task)
      ∧ ∃ plan final,
          outcome (Machine.execute .ieee sampleTasks) sampleFresh
            = (.error (.sourceNotComputed sums.kernelName 1), final)
          ∧ plan.map PlanStep.task = sampleTasks
          ∧ Plan.Runs .ieee plan sample.workspace (.error (.sourceNotComputed sums.kernelName 1))
              final.workspace := by
  obtain ⟨prepared, failed⟩ := executed_sample
  have listed : ∀ task ∈ sampleTasks, sample.Lists task := by
    intro task member
    have inside : task ∈ [ones, negation 1, sums] := by
      revert task
      decide
    exact .made reachable_sample sampleSums (by decide) [ones, negation 1, sums] rfl task inside
  let final := (outcome (Machine.execute .ieee sampleTasks) sampleFresh).2
  have ran
      : outcome (Machine.execute .ieee sampleTasks) sampleFresh
        = (.error (.sourceNotComputed sums.kernelName 1), final) :=
    Prod.ext failed rfl
  obtain ⟨_, runs⟩ :=
    reachable_sample.execute_atomic listed (.start (.simulated "cc" .working 0)) (by simp)
      (.simulated "cc" .working 0) .start .ieee ran
  obtain ⟨plan, same, stopped⟩ := runs fun cause shop stops => by
    have none := Workshop.outcome_prepare_eq_error.mpr stops
    change outcome (Workshop.prepare sampleTasks) sampleFresh.shop = _ at none
    rw [none] at prepared
    cases prepared
  exact ⟨listed, plan, final, ran, same, stopped⟩

end Desk

end LazyTensor
