import LazyTensor.Proofs.Engine.Machine
import LazyTensor.Proofs.Engine.Progress

/-! Engines as callers. An engine takes memory, overwrites elements and marks what is computed,
and callers can do all of this themselves. So however an engine ends, in the middle of its work or
not, what it leaves of the graphs on a desk is a state that callers can come to.
-/

namespace LazyTensor

/-- A step on one graph leaves the workspace as it is built, however it ends. -/
theorem Execution.onGraph_final {α : Type} (id : Nat) (step : Build α) (workspace : Workspace)
    : Ends (onGraph id step) workspace (fun _ final => final = (workspace.build id step).2)
        (fun _ final => final = (workspace.build id step).2) := by
  simp only [onGraph, ends_bind, ends_get, ends_set]
  split
  · rfl
  · rfl

/-- A plan has the tasks that it was made for, whatever the cache. -/
theorem Workshop.prepare_tasks (schedule : Schedule) (shop : Workshop)
    : Ends (prepare schedule) shop (fun plan _ => plan.map PlanStep.task = schedule)
        (fun _ _ => True) := by
  have each (task : Task) (_ : task ∈ schedule) (shop : Workshop) (_ : True)
      : Ends (prepareTask task) shop (fun step _ => True ∧ step.task = task ∧ True)
          (fun _ _ => True) := by
    unfold prepareTask
    split
    · trivial
    · simp only [ends_bind, ends_pure, and_self]
      exact .of_forall (fun _ _ => trivial) fun _ _ => trivial
  exact (prepare_ends each shop trivial).mono (fun _ _ ends => ends.2.1) fun _ _ _ => trivial

namespace Desk

variable {desk : Desk} {arith : Arithmetic}

/-- The desk with other graphs. -/
def withWorkspace (desk : Desk) (workspace : Workspace) : Desk := { desk with workspace }

/-- Graphs that callers can come to from a desk without a buffer more. -/
structure Leads (desk : Desk) (final : Workspace) : Prop where
  reached : (desk.withWorkspace final).Reachable
  extends_ : desk.workspace.Extends final

theorem Reachable.leads (reached : desk.Reachable) : desk.Leads desk.workspace :=
  ⟨reached, .refl _⟩

theorem Leads.trans {middle final : Workspace} (first : desk.Leads middle)
    (second : (desk.withWorkspace middle).Leads final)
    : desk.Leads final :=
  ⟨second.reached, first.extends_.trans second.extends_⟩

/-- A step that callers can take on one graph leads to what they can come to, however it ends. -/
theorem Reachable.onGraph_leads (reached : desk.Reachable) {α : Type} {id : Nat} {step : Build α}
    (taken : desk.Step (desk.change id step))
    (later
      : (outcome step (desk.workspace.graph id)).2.WellFormed
        ∧ (desk.workspace.graph id).Extends (outcome step (desk.workspace.graph id)).2)
    : Ends (Execution.onGraph id step) desk.workspace (fun _ => desk.Leads)
        (fun _ => desk.Leads) := by
  have leads : desk.Leads (desk.workspace.build id step).2 :=
    ⟨.step reached taken, (reached.wellFormed.workspace.build later).2⟩
  refine (Execution.onGraph_final id step desk.workspace).mono ?_ ?_
  · exact fun _ _ same => same ▸ leads
  · exact fun _ _ same => same ▸ leads

theorem Reachable.allocate_leads (reached : desk.Reachable) (id position : Nat)
    : Ends (Execution.onGraph id (Graph.allocate position)) desk.workspace (fun _ => desk.Leads)
        (fun _ => desk.Leads) :=
  reached.onGraph_leads (.allocate desk id position)
    (Graph.allocate_later (reached.wellFormed.workspace id).2 position)

theorem Reachable.markComputed_leads (reached : desk.Reachable) (id position : Nat)
    : Ends (Execution.onGraph id (Graph.markComputed position)) desk.workspace (fun _ => desk.Leads)
        (fun _ => desk.Leads) :=
  reached.onGraph_leads (.markComputed desk id position)
    (Graph.markComputed_later (reached.wellFormed.workspace id).2 position)

theorem Reachable.overwrite_leads (reached : desk.Reachable) {buffer : Buffer} {old new : Storage}
    (found : (desk.workspace.graph buffer.graph).storage? buffer.node = some old)
    (type : new.dtype = old.dtype) (size : new.size = old.size)
    : desk.Leads (desk.workspace.withStorage buffer new) := by
  refine ⟨.step reached (.overwrite desk buffer old new found type size), ?_⟩
  refine (reached.wellFormed.workspace.withStorage fun node foundNode => ?_).2
  have fits := ((reached.wellFormed.workspace _).2 _ node foundNode).storage old (by
    simpa only [Graph.storage?, foundNode, Option.bind_some] using found)
  exact ⟨type.trans fits.1, size.trans fits.2⟩

/-- A step of a plan does what callers can do, however it ends. -/
theorem Reachable.execute_leads (reached : desk.Reachable) {step : PlanStep}
    (recorded : step.task.Recorded desk.workspace)
    : Ends (step.execute arith) desk.workspace (fun _ => desk.Leads) (fun _ => desk.Leads) := by
  obtain ⟨node, operation, found, _⟩ := recorded
  let target := step.task.target
  have memory := (Execution.allocate_progress reached.wellFormed.workspace found).and
    (reached.allocate_leads target.graph target.node)
  simp only [PlanStep.execute, ends_bind, ends_get]
  split
  · exact reached.leads
  · simp only [ends_bind, ends_liftExcept]
    split
    · refine memory.mono ?_ (fun _ _ ends => ends.2)
      rintro out middle ⟨⟨_, had, _⟩, leads⟩
      split
      · next written ran =>
          obtain ⟨type, size⟩ := Executable.shape_of_invoke ran
          have filled := leads.trans (leads.reached.overwrite_leads had type size)
          refine (filled.reached.markComputed_leads target.graph target.node).mono ?_ ?_
          · exact fun _ _ => filled.trans
          · exact fun _ _ => filled.trans
      · exact leads
    · exact reached.leads

/-- A plan does what callers can do, wherever it stops, by induction on the plan. -/
theorem Reachable.run_leads (reached : desk.Reachable) {plan : Plan}
    (recorded : ∀ step ∈ plan, step.task.Recorded desk.workspace)
    : Ends (plan.run arith) desk.workspace (fun _ => desk.Leads) (fun _ => desk.Leads) := by
  induction plan generalizing desk with
  | nil => exact reached.leads
  | cons step rest ih =>
      obtain ⟨first, others⟩ := List.forall_mem_cons.mp recorded
      simp only [Plan.run, ends_bind]
      refine (reached.execute_leads first).mono ?_ (fun _ _ leads => leads)
      intro _ middle leads
      have next : ∀ step ∈ rest, step.task.Recorded middle := fun other member =>
        (others other member).later leads.extends_ reached.wellFormed.workspace
      exact (ih leads.reached next).mono (fun _ _ => leads.trans) fun _ _ => leads.trans

end Desk

end LazyTensor
