import LazyTensor.Engine.Plan

/-! Engines make kernels for schedules and run them. An engine keeps its kernels in memory for
as long as it lives; graphs and the host outlive it.
-/

namespace LazyTensor

/-- Settings and kernels. -/
structure Engine where
  settings : Settings
  cache : Cache

/-- An engine with the graphs and the host that it works on. -/
structure Machine where
  workspace : Workspace
  engine : Engine
  host : Host

/-- Steps on a machine that may fail and keep what they have done. -/
abbrev Running := ExceptT EngineError (StateM Machine)

namespace Engine

/-- An engine without kernels. -/
def start (settings : Settings) (toolchain : Toolchain) : Engine :=
  ⟨settings, .start settings toolchain⟩

/-- The engine with its fields spelt out. -/
def description (engine : Engine) : String :=
  "Runner \x7b config: " ++ engine.settings.description ++ ", backend: \"c\", cache: "
    ++ engine.cache.description ++ " \x7d"

end Engine

namespace Running

/-- Runs a step on the cache and the host. -/
def making {α : Type} (step : Making α) : Running α := do
  let machine ← get
  let (result, shop) := step.run.run ⟨machine.engine.cache, machine.host⟩
  set { machine with
    engine := { machine.engine with cache := shop.cache }, host := shop.host }
  MonadExcept.ofExcept result

/-- Runs a step on the graphs. -/
def executing {α : Type} (step : Execution α) : Running α := do
  let machine ← get
  let (result, workspace) := step.run.run machine.workspace
  set { machine with workspace }
  MonadExcept.ofExcept result

end Running

/-- The kernel of a task. -/
def Workshop.prepareTask (task : Task) : Making PlanStep := do
  match task.render with
  | .error cause => throw (.render cause)
  | .ok unit => return ⟨task, ← request unit⟩

/-- The kernels of a schedule, up to the first failure. -/
def Workshop.prepare (schedule : Schedule) : Making Plan := schedule.mapM prepareTask

namespace Machine

/-- Makes all kernels of a schedule. -/
def prepare (schedule : Schedule) : Running Plan := Running.making (Workshop.prepare schedule)

/-- Runs a plan. -/
def run (arith : Arithmetic) (plan : Plan) : Running Unit := Running.executing (plan.run arith)

/-- Makes all kernels of a schedule and runs them. -/
def execute (arith : Arithmetic) (schedule : Schedule) : Running Unit := do
  let plan ← prepare schedule
  run arith plan

/-- Computes a buffer with everything that it needs and gives the storage of its node. -/
def materialize (arith : Arithmetic) (buffer : Buffer) : Running Storage := do
  match ((← get).workspace.graph buffer.graph).schedule buffer.node with
  | .error cause => throw (.schedule cause)
  | .ok schedule =>
      execute arith schedule
      Running.executing (Execution.onGraph buffer.graph (Graph.allocate buffer.node))

end Machine

end LazyTensor
