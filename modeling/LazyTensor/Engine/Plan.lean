import LazyTensor.Engine.Cache
import LazyTensor.Workspace

/-! Plans: tasks with their kernels, ready to run. All kernels are made before any memory is
taken. Running a plan passes over what is computed already, so a plan may be run again.
-/

namespace LazyTensor

/-- A task and its kernel. -/
structure PlanStep where
  task : Task
  kernel : Executable
deriving DecidableEq, Repr

/-- Steps in the order in which they run. -/
abbrev Plan := List PlanStep

/-- Steps on a workspace that may fail and keep what they have done. -/
abbrev Execution := ExceptT EngineError (StateM Workspace)

namespace Execution

/-- Runs a step on one graph. -/
def onGraph {α : Type} (id : Nat) (step : Build α) : Execution α := do
  let (result, workspace) := (← get).build id step
  set workspace
  match result with
  | .ok value => return value
  | .error cause => throw (.graph cause)

end Execution

namespace PlanStep

/-- The storage of every source, in order. All of them have to be final. -/
def sources (step : PlanStep) (workspace : Workspace) : Except EngineError (List Storage) :=
  step.task.sources.mapM fun source =>
    match workspace.finished? source with
    | some storage => .ok storage
    | none => .error (.sourceNotComputed step.kernel.name source.node)

/-- Takes memory for the target, runs the kernel over it and marks the target as computed. A
target that is computed stays as it is.
-/
def execute (arith : Arithmetic) (step : PlanStep) : Execution Unit := do
  let target := step.task.target
  let workspace ← get
  if (workspace.graph target.graph).isComputed target.node then
    return ()
  let sources ← (step.sources workspace : Except EngineError (List Storage))
  let out ← Execution.onGraph target.graph (Graph.allocate target.node)
  let written ← (step.kernel.invoke arith out sources : Except EngineError Storage)
  modify (·.withStorage target written)
  Execution.onGraph target.graph (Graph.markComputed target.node)

end PlanStep

namespace Plan

/-- The kernels of the steps, in order. -/
def executables (plan : Plan) : List Executable := plan.map PlanStep.kernel

/-- Runs the steps in order up to the first failure. -/
def run (arith : Arithmetic) : Plan → Execution Unit
  | [] => pure ()
  | step :: rest => do
      step.execute arith
      run arith rest

end Plan

end LazyTensor
