import LazyTensor.Proofs.Workspace.WellFormed

/-! What callers can make of graphs. A desk is a workspace with the buffers that callers hold.
Buffers come from builders, from nodes and from recorded sources; memory is taken, overwritten
by elements of the same type and number, and marked as final at any time and in any order, and what
memory the host has may change between any two steps. All desks that are reached keep to the rules.
-/

namespace LazyTensor

/-- Graphs and the buffers that callers hold. -/
structure Desk where
  workspace : Workspace
  buffers : List Buffer

namespace Desk

/-- One empty graph and no buffer. -/
def start : Desk := ⟨.start, []⟩

/-- The desk after a step on one of its graphs that gives no buffer. -/
def change {α : Type} (desk : Desk) (id : Nat) (step : Build α) : Desk :=
  { desk with workspace := (desk.workspace.build id step).2 }

/-- The desk after a call of a builder. The buffer that it answers with is held from then on. -/
def call (desk : Desk) (call : BuildCall) : Desk :=
  match desk.workspace.build call.graph call.step with
  | (.ok buffer, workspace) => ⟨workspace, buffer :: desk.buffers⟩
  | (.error _, workspace) => ⟨workspace, desk.buffers⟩

/-- The desk with one more buffer. -/
def hold (desk : Desk) (buffer : Buffer) : Desk := { desk with buffers := buffer :: desk.buffers }

/-- One step of any caller. -/
inductive Step : Desk → Desk → Prop
  | addGraph (desk : Desk)
    : Step desk { desk with workspace := desk.workspace.addGraph }
  /-- A builder is called on a graph that is there with buffers that are held. -/
  | call (desk : Desk) (call : BuildCall) (present : call.graph < desk.workspace.size)
    (held : ∀ operand ∈ call.operands, operand ∈ desk.buffers)
    : Step desk (desk.call call)
  /-- A node is looked at as it lies in its own storage. -/
  | node (desk : Desk) (id position : Nat) (buffer : Buffer)
    (found : (desk.workspace.graph id).nodeView position = some buffer)
    : Step desk (desk.hold buffer)
  /-- A source of a node is looked at as it was recorded. -/
  | source (desk : Desk) (id position : Nat) (node : Node) (operation : Operation)
    (source : Source) (found : (desk.workspace.graph id).nodes[position]? = some node)
    (made : node.producer = some operation) (member : source ∈ operation.sources)
    : Step desk (desk.hold ((desk.workspace.graph id).sourceView source))
  | allocate (desk : Desk) (id position : Nat)
    : Step desk (desk.change id (Graph.allocate position))
  /-- The elements of a node are overwritten. -/
  | overwrite (desk : Desk) (buffer : Buffer) (old new : Storage)
    (found : (desk.workspace.graph buffer.graph).storage? buffer.node = some old)
    (type : new.dtype = old.dtype) (size : new.size = old.size)
    : Step desk { desk with workspace := desk.workspace.withStorage buffer new }
  | markComputed (desk : Desk) (id position : Nat)
    : Step desk (desk.change id (Graph.markComputed position))
  /-- The host gives other amounts of memory. -/
  | serve (desk : Desk) (id : Nat) (memory : (node bytes : Nat) → Bool)
    : Step desk (desk.change id (Graph.serve memory))

/-- A desk that callers can come to. -/
inductive Reachable : Desk → Prop
  | start : Reachable .start
  | step {desk next : Desk} (reached : Reachable desk) (step : desk.Step next) : Reachable next

/-- The graphs keep to the rules and every buffer that is held is a buffer of its graph. -/
structure WellFormed (desk : Desk) : Prop where
  workspace : desk.workspace.WellFormed
  buffers : ∀ buffer ∈ desk.buffers, desk.workspace.Has buffer

theorem wellFormed_start : WellFormed .start := ⟨.start, by simp [start]⟩

theorem WellFormed.later {desk : Desk} (wf : desk.WellFormed) {workspace : Workspace}
    (next : workspace.WellFormed ∧ desk.workspace.Extends workspace)
    : WellFormed { desk with workspace } :=
  ⟨next.1, fun buffer member => next.2.has (wf.buffers buffer member)⟩

theorem WellFormed.hold {desk : Desk} (wf : desk.WellFormed) {buffer : Buffer}
    (held : desk.workspace.Has buffer)
    : (desk.hold buffer).WellFormed :=
  ⟨wf.workspace, List.forall_mem_cons.mpr ⟨held, wf.buffers⟩⟩

/-- Buffers that are held and that a graph takes for its own are buffers of the graph. -/
theorem WellFormed.operands_in {desk : Desk} (wf : desk.WellFormed) {call : BuildCall}
    (held : ∀ operand ∈ call.operands, operand ∈ desk.buffers)
    : ∀ operand ∈ call.operands,
        operand.graph = (desk.workspace.graph call.graph).id →
          operand.In (desk.workspace.graph call.graph) := by
  intro operand member same
  have has := wf.buffers operand (held operand member)
  rwa [Workspace.Has, same, (wf.workspace call.graph).1] at has

/-- A call of a builder does to the workspace what it does to its graph. -/
theorem workspace_call (desk : Desk) (call : BuildCall)
    : (desk.call call).workspace = (desk.workspace.build call.graph call.step).2 := by
  rw [Desk.call]
  split
  · next same => rw [same]
  · next same => rw [same]

/-- A call of a builder with buffers that are held keeps a desk to the rules. -/
theorem WellFormed.call {desk : Desk} (wf : desk.WellFormed) (call : BuildCall)
    (present : call.graph < desk.workspace.size)
    (held : ∀ operand ∈ call.operands, operand ∈ desk.buffers)
    : (desk.call call).WellFormed := by
  obtain ⟨own, graphWf⟩ := wf.workspace call.graph
  obtain ⟨later, given⟩ := call.step_later graphWf own.symm (wf.operands_in held)
  have kept := wf.workspace.build later
  have final := desk.workspace.graph_build call.graph call.step call.graph
  rw [if_pos ⟨rfl, present⟩] at final
  rw [← Workspace.build_fst, ← final] at given
  unfold Desk.call
  generalize desk.workspace.build call.graph call.step = built at kept given
  rcases built with ⟨cause | buffer, workspace⟩
  · exact wf.later kept
  · refine (wf.later kept).hold ?_
    have inside := given buffer rfl
    rwa [Workspace.Has, inside.1, (kept.1 call.graph).1]

/-- Every step keeps a desk to the rules. -/
theorem WellFormed.step {desk next : Desk} (wf : desk.WellFormed) (step : desk.Step next)
    : next.WellFormed := by
  cases step with
  | addGraph =>
      refine wf.later ⟨wf.workspace.addGraph, ?_⟩
      intro id
      rw [Workspace.graph_addGraph]
      exact .refl _
  | call call present held => exact wf.call call present held
  | node id position buffer found =>
      have inside := (wf.workspace id).2.nodeView_in found
      refine wf.hold ?_
      rwa [Workspace.Has, inside.1, (wf.workspace id).1]
  | source id position node operation source found made member =>
      refine wf.hold ?_
      have reads := ((wf.workspace id).2 position node found).reads operation made source member
      have inside := reads.sourceView_in.1
      rwa [Workspace.Has, inside.1, (wf.workspace id).1]
  | allocate id position =>
      exact wf.later (wf.workspace.build (Graph.allocate_later (wf.workspace id).2 position))
  | overwrite buffer old new found type size =>
      refine wf.later (wf.workspace.withStorage ?_)
      intro node foundNode
      obtain ⟨oldType, oldSize⟩ := ((wf.workspace _).2 _ node foundNode).storage old (by
        simpa only [Graph.storage?, foundNode, Option.bind_some] using found)
      exact ⟨type.trans oldType, size.trans oldSize⟩
  | markComputed id position =>
      exact wf.later (wf.workspace.build (Graph.markComputed_later (wf.workspace id).2 position))
  | serve id memory =>
      exact wf.later (wf.workspace.build (Graph.serve_later (wf.workspace id).2 memory))

/-- Every step leads the graphs on: the nodes that were there stay what they are. -/
theorem WellFormed.step_extends {desk next : Desk} (wf : desk.WellFormed) (step : desk.Step next)
    : desk.workspace.Extends next.workspace := by
  cases step with
  | addGraph =>
      intro id
      rw [Workspace.graph_addGraph]
      exact .refl _
  | call call present held =>
      obtain ⟨own, graphWf⟩ := wf.workspace call.graph
      rw [workspace_call]
      exact (wf.workspace.build (call.step_later graphWf own.symm (wf.operands_in held)).1).2
  | node | source => exact .refl _
  | allocate id position =>
      exact (wf.workspace.build (Graph.allocate_later (wf.workspace id).2 position)).2
  | overwrite buffer old new found type size =>
      intro id
      rw [Workspace.graph_withStorage]
      split
      · exact Graph.extends_stored _ _ new
      · exact .refl _
  | markComputed id position =>
      exact (wf.workspace.build (Graph.markComputed_later (wf.workspace id).2 position)).2
  | serve id memory =>
      exact (wf.workspace.build (Graph.serve_later (wf.workspace id).2 memory)).2

/-- Every desk that is reached keeps to the rules, by induction on the steps. -/
theorem Reachable.wellFormed {desk : Desk} (reached : desk.Reachable) : desk.WellFormed := by
  induction reached with
  | start => exact wellFormed_start
  | step _ step ih => exact ih.step step

/-- A row of ones under its own layout. -/
def sampleRow : Buffer := ⟨0, 0, .float32, .dense [1, 3]⟩

/-- The row broadcast to two rows. -/
def sampleRows : Buffer := ⟨0, 0, .float32, ⟨⟨[2, 3], [2, 1]⟩, [.dense [1, 3]]⟩⟩

/-- The rows with the other sign, still broadcast. -/
def sampleNegated : Buffer := { sampleRows with node := 1 }

/-- The sum of each column. -/
def sampleSums : Buffer := ⟨0, 2, .float32, .dense [3]⟩

/-- The calls that lead to the sample. -/
def sampleCalls : List BuildCall :=
  [.fill 0 .constant [1, 3] (some (.value 0x3FF0000000000000)) .float32,
    .expand sampleRow [2, 3], .elementwise sampleRows (.unary .neg) [],
    .reduce sampleNegated .sum 0]

/-- A row that is broadcast, negated and summed. -/
def sample : Desk := sampleCalls.foldl call start

theorem reachable_sample : Reachable sample := by
  have first : Reachable (start.call sampleCalls[0]) :=
    .step .start (.call _ _ (by decide) (by decide))
  have second := Reachable.step first (.call _ sampleCalls[1] (by decide) (by decide))
  have third := Reachable.step second (.call _ sampleCalls[2] (by decide) (by decide))
  exact .step third (.call _ sampleCalls[3] (by decide) (by decide))

end Desk

end LazyTensor
