import LazyTensor.Proofs.Engine.Lifecycle

/-! What plans leave in memory. A step that finds its target computed passes over it. Any other step
that is through has called its kernel once, with what its sources hold and over the memory of the
node, or zeroed memory if the node had none. What the call leaves is there when the plan is through.
-/

namespace LazyTensor

variable {arith : Arithmetic} {workspace final : Workspace}

/-- A node that is computed stays the same as it lives on. -/
theorem Node.LivesOn.eq_of_computed {node later : Node} (lives : node.LivesOn arith later)
    (computed : node.computed = true)
    : later = node := by
  obtain ⟨still, storage⟩ := lives.final computed
  obtain ⟨producer, device, dtype, layout⟩ := lives.continues
  cases node
  cases later
  simp_all

namespace Workspace.LivesOn

variable {buffer : Buffer}

/-- What is computed stays the same node as a workspace lives on. -/
theorem node_eq (lives : workspace.LivesOn arith final)
    (computed : (workspace.graph buffer.graph).isComputed buffer.node = true)
    : (final.graph buffer.graph).nodes[buffer.node]?
      = (workspace.graph buffer.graph).nodes[buffer.node]? := by
  rw [Graph.isComputed] at computed
  split at computed
  · next node found =>
      obtain ⟨later, foundLater, livesOn⟩ := (lives buffer.graph).nodes _ node found
      rw [foundLater, found, livesOn.eq_of_computed computed]
  · cases computed

/-- What is final stays the same as a workspace lives on. -/
theorem finished? (lives : workspace.LivesOn arith final) {storage : Storage}
    (had : workspace.finished? buffer = some storage)
    : final.finished? buffer = some storage := by
  rw [Workspace.finished?] at had ⊢
  split at had
  · next computed =>
      have same := lives.node_eq computed
      have still : (final.graph buffer.graph).isComputed buffer.node = true := by
        rw [Graph.isComputed, same]
        exact computed
      rw [if_pos still, Graph.storage?, same]
      exact had
  · cases had

end Workspace.LivesOn

-----------------------------------------------------------------------------------------
-- Steps
-----------------------------------------------------------------------------------------

namespace PlanStep

/-- A step fills its target, which was not computed: the target is computed and holds what the kernel of
the step leaves of the memory that the node had, or else of zeroed memory, when it is called with what
the sources hold.
-/
def Fills (arith : Arithmetic) (step : PlanStep) (old new : Workspace) : Prop :=
  ∃ (node : Node) (stored : Buffer → Storage) (written : Storage),
    (old.graph step.task.target.graph).nodes[step.task.target.node]? = some node
    ∧ node.computed = false
    ∧ (∀ source ∈ step.task.sources, new.finished? source = some (stored source))
    ∧ step.kernel.invoke arith (node.storage.getD node.zeroed) (step.task.sources.map stored)
      = .ok written
    ∧ new.finished? step.task.target = some written

/-- What a step has filled stays filled. -/
theorem Fills.later {step : PlanStep} {middle : Workspace} (fills : step.Fills arith workspace middle)
    (lives : middle.LivesOn arith final)
    : step.Fills arith workspace final := by
  obtain ⟨node, stored, written, found, pending, sources, ran, filled⟩ := fills
  exact ⟨node, stored, written, found, pending,
    fun source member => lives.finished? (sources source member), ran, lives.finished? filled⟩

/-- A step that fills its target fills it, too, from any state in which the node was the same. -/
theorem Fills.earlier {step : PlanStep} {middle : Workspace} (fills : step.Fills arith middle final)
    (same
      : (middle.graph step.task.target.graph).nodes[step.task.target.node]?
        = (workspace.graph step.task.target.graph).nodes[step.task.target.node]?)
    : step.Fills arith workspace final := by
  obtain ⟨node, stored, written, found, others⟩ := fills
  exact ⟨node, stored, written, same ▸ found, others⟩

end PlanStep

/-- The memory of a node is what it had, or zeroed memory. -/
theorem Graph.Allocates.storage_eq {graph later : Graph} {position : Nat} {storage : Storage}
    (allocates : graph.Allocates position storage later) {node : Node}
    (found : graph.nodes[position]? = some node)
    : storage = node.storage.getD node.zeroed := by
  cases allocates with
  | kept other foundOther had =>
      obtain rfl := Option.some.inj (found.symm.trans foundOther)
      rw [had, Option.getD_some]
  | taken other foundOther had zeroed =>
      obtain rfl := Option.some.inj (found.symm.trans foundOther)
      rw [had, Option.getD_none, zeroed, Node.zeroed]

/-- A node whose storage was written and which was marked has final contents. -/
theorem Execution.fill_finishes {buffer : Buffer} {node : Node}
    (found : (workspace.graph buffer.graph).nodes[buffer.node]? = some node) (written : Storage)
    : Ends (onGraph buffer.graph (Graph.markComputed buffer.node))
        (workspace.withStorage buffer written)
        (fun _ final => final.finished? buffer = some written) (fun _ _ => True) := by
  refine (onGraph_stored_ends (Workspace.lt_size_of_found found) (Graph.markComputed_ends _ _)).mono
    ?_ (fun _ _ _ => trivial)
  rintro _ final ⟨⟨_, same⟩, _⟩
  simp only [Workspace.finished?, Graph.isComputed, Graph.storage?, same, Graph.updateNode,
    Array.getElem?_modify, if_true, found, Option.map_some, Option.bind_some]
  rfl

/-- A step that is through was passed over or has filled its target. -/
theorem PlanStep.execute_fills (wf : workspace.WellFormed) (step : PlanStep)
    : Ends (step.execute arith) workspace
        (fun _ final =>
          (workspace.graph step.task.target.graph).isComputed step.task.target.node = true
            ∧ final = workspace
          ∨ step.Fills arith workspace final)
        (fun _ _ => True) := by
  have calls
      : Ends (step.execute arith) workspace
          (fun _ final =>
            (workspace.graph step.task.target.graph).isComputed step.task.target.node = true
              ∧ final = workspace
            ∨ ∃ (node : Node) (stored : Buffer → Storage) (written : Storage),
                (workspace.graph step.task.target.graph).nodes[step.task.target.node]? = some node
                ∧ node.computed = false
                ∧ (∀ source ∈ step.task.sources, workspace.finished? source = some (stored source))
                ∧ step.kernel.invoke arith (node.storage.getD node.zeroed)
                    (step.task.sources.map stored)
                  = .ok written
                ∧ final.finished? step.task.target = some written)
          (fun _ _ => True) := by
    simp only [execute, ends_bind, ends_get]
    split
    · next computed => exact Or.inl ⟨computed, rfl⟩
    · next pending =>
        simp only [ends_bind, ends_liftExcept]
        split
        · next storages had =>
            obtain ⟨stored, rfl, finished⟩ := sources_eq_ok had
            refine ((Execution.onGraph_result _ _ workspace).and
              (@Execution.allocate_livesOn arith _ wf _ _)).mono ?_ (fun _ _ _ => trivial)
            rintro out middle ⟨taken, _, later, foundLater, _⟩
            have allocates := (Graph.allocate_ends _ _).of_ok taken
            obtain ⟨node, found, _⟩ := allocates.storage_fits (wf _).2
            obtain rfl := allocates.storage_eq found
            split
            · next written ran =>
                refine (Execution.fill_finishes foundLater written).mono ?_ (fun _ _ _ => trivial)
                intro _ final filled
                refine Or.inr ⟨node, stored, written, found, ?_, finished, ran, filled⟩
                rw [Graph.isComputed, found] at pending
                exact Bool.eq_false_iff.mpr pending
            · trivial
        · trivial
  refine (calls.and (step.execute_livesOn wf)).mono ?_ (fun _ _ _ => trivial)
  rintro _ final ⟨passed | ⟨node, stored, written, found, pending, finished, ran, filled⟩, lives⟩
  · exact Or.inl passed
  · exact Or.inr ⟨node, stored, written, found, pending,
      fun source member => lives.finished? (finished source member), ran, filled⟩

-----------------------------------------------------------------------------------------
-- Plans
-----------------------------------------------------------------------------------------

namespace Plan

/-- A target was computed and is as it was, or one of some steps has filled it. -/
def Fills (arith : Arithmetic) (plan : Plan) (target : Buffer) (old new : Workspace) : Prop :=
  (old.graph target.graph).isComputed target.node = true
    ∧ (new.graph target.graph).nodes[target.node]? = (old.graph target.graph).nodes[target.node]?
  ∨ ∃ step ∈ plan, step.task.target.At target.graph target.node ∧ step.Fills arith old new

/-- All targets of some steps were computed and are as they were, or have been filled by one of them. -/
def Filled (arith : Arithmetic) (plan : Plan) (old new : Workspace) : Prop :=
  ∀ step ∈ plan, plan.Fills arith step.task.target old new

variable {step : PlanStep} {rest : Plan} {middle : Workspace}

/-- Steps that leave the graphs as they are leave the targets filled. -/
theorem Filled.of_same {plan : Plan} (filled : plan.Filled arith workspace middle)
    (same : ∀ id, final.graph id = middle.graph id)
    : plan.Filled arith workspace final := by
  simpa only [Filled, Fills, PlanStep.Fills, Workspace.finished?, same] using filled

/-- After a step was passed over, the steps behind it fill what is filled. -/
theorem Filled.cons_passed (filled : Filled arith rest workspace final)
    (lives : workspace.LivesOn arith final)
    (computed
      : (workspace.graph step.task.target.graph).isComputed step.task.target.node = true)
    : Filled arith (step :: rest) workspace final := by
  refine List.forall_mem_cons.mpr ⟨Or.inl ⟨computed, lives.node_eq computed⟩, ?_⟩
  intro other member
  refine (filled other member).imp_right ?_
  exact fun ⟨filler, inside, fills⟩ => ⟨filler, List.mem_cons_of_mem _ inside, fills⟩

/-- A step that fills its target leaves the other targets to the steps behind it. -/
theorem Filled.cons_filled (filled : Filled arith rest middle final)
    (lives : middle.LivesOn arith final) (fills : step.Fills arith workspace middle)
    (others : workspace.SameOutside step.task.target.At middle)
    : Filled arith (step :: rest) workspace final := by
  intro one member
  by_cases own : step.task.target.At one.task.target.graph one.task.target.node
  · exact Or.inr ⟨step, List.mem_cons_self, own, fills.later lives⟩
  · have behind := (List.mem_cons.mp member).resolve_left fun same => own (same ▸ ⟨rfl, rfl⟩)
    have same := others _ _ own
    rcases filled one behind with ⟨computed, kept⟩ | ⟨filler, inside, at_, fillsLater⟩
    · refine Or.inl ⟨?_, kept.trans same⟩
      rwa [Graph.isComputed, ← same]
    · refine Or.inr ⟨filler, List.mem_cons_of_mem _ inside, at_, fillsLater.earlier ?_⟩
      rw [at_.1, at_.2, same]

/-- A plan that is through has filled its targets, by induction on the plan. -/
theorem run_filled (wf : workspace.WellFormed) (plan : Plan)
    : Ends (plan.run arith) workspace (fun _ final => plan.Filled arith workspace final)
        (fun _ _ => True) := by
  induction plan generalizing workspace with
  | nil => exact fun _ member => absurd member List.not_mem_nil
  | cons step rest ih =>
      simp only [run, ends_bind]
      refine (((step.execute_fills wf).and (step.execute_livesOn wf)).and
        (step.execute_sameOutside workspace)).mono ?_ (fun _ _ _ => trivial)
      rintro _ middle ⟨⟨came, lives⟩, others⟩
      have wfMiddle := (lives.later wf).1
      refine ((ih wfMiddle).and (run_livesOn wfMiddle rest)).mono ?_ (fun _ _ _ => trivial)
      rintro _ final ⟨filled, livesOn⟩
      rcases came with ⟨computed, rfl⟩ | fills
      · exact filled.cons_passed livesOn computed
      · exact filled.cons_filled livesOn fills others

end Plan

end LazyTensor
