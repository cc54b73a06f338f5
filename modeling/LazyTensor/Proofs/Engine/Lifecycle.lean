import LazyTensor.Proofs.Engine.Frame

/-! How nodes live. A node has no memory at first. Memory that is taken for it is zeroed and stays its
memory; the contents are written at most once, by the kernel by which the node is computed; and
when it is computed, they are final. Builders and engines keep to this, whatever they are asked to do
and wherever they stop.
-/

namespace LazyTensor

variable {arith : Arithmetic}

-----------------------------------------------------------------------------------------
-- Nodes
-----------------------------------------------------------------------------------------

namespace Node

/-- The memory that is taken for a node. -/
def zeroed (node : Node) : Storage := ⟨node.dtype, Array.replicate node.layout.physicalSize 0⟩

/-- What memory of a node holds later on: what it holds now, or what one call of a kernel made of
that, by which the node came to be computed.
-/
def Refills (arith : Arithmetic) (old new : Node) (before after : Storage) : Prop :=
  after = before
  ∨ old.computed = false ∧ new.computed = true
    ∧ ∃ (kernel : Executable) (sources : List Storage),
        kernel.invoke arith before sources = .ok after

/-- A node as it is later. It is made, stored and shaped as before. Memory that it had is its memory,
any other was zeroed when it was taken, and once the node is computed nothing changes.
-/
structure LivesOn (arith : Arithmetic) (old new : Node) : Prop where
  continues : old.Continues new
  memory
    : ∀ before, old.storage = some before →
        ∃ after, new.storage = some after ∧ old.Refills arith new before after
  taken
    : old.storage = none → ∀ after, new.storage = some after →
        old.Refills arith new old.zeroed after
  final : old.computed = true → new.computed = true ∧ new.storage = old.storage

theorem LivesOn.refl (node : Node) : node.LivesOn arith node where
  continues := .refl node
  memory := fun before had => ⟨before, had, Or.inl rfl⟩
  taken := fun absent after had => by simp [absent] at had
  final := fun computed => ⟨computed, rfl⟩

/-- Memory that is refilled in the first of two stretches of time is final in the second. -/
theorem Refills.trans {first second third : Node} (left : first.LivesOn arith second)
    (right : second.LivesOn arith third) {before between : Storage}
    (had : second.storage = some between) (refills : first.Refills arith second before between)
    : ∃ after, third.storage = some after ∧ first.Refills arith third before after := by
  rcases refills with rfl | ⟨pending, computed, ran⟩
  · obtain ⟨after, has, rfl | ⟨pending, computed, ran⟩⟩ := right.memory between had
    · exact ⟨after, has, Or.inl rfl⟩
    · refine ⟨after, has, Or.inr ⟨Bool.eq_false_iff.mpr fun early => ?_, computed, ran⟩⟩
      rw [(left.final early).1] at pending
      cases pending
  · obtain ⟨still, same⟩ := right.final computed
    exact ⟨between, same.trans had, Or.inr ⟨pending, still, ran⟩⟩

theorem LivesOn.trans {first second third : Node} (left : first.LivesOn arith second)
    (right : second.LivesOn arith third)
    : first.LivesOn arith third where
  continues := left.continues.trans right.continues
  memory := by
    intro before had
    obtain ⟨between, has, refills⟩ := left.memory before had
    exact refills.trans left right has
  taken := by
    intro absent after had
    cases has : second.storage with
    | none =>
        have zeros : second.zeroed = first.zeroed := by
          rw [zeroed, zeroed, left.continues.dtype, left.continues.layout]
        rcases right.taken has after had with rfl | ⟨pending, computed, ran⟩
        · exact Or.inl zeros
        · refine Or.inr ⟨Bool.eq_false_iff.mpr fun early => ?_, computed, zeros ▸ ran⟩
          rw [(left.final early).1] at pending
          cases pending
    | some between =>
        obtain ⟨last, same, refills⟩ := (left.taken absent between has).trans left right has
        obtain rfl := Option.some.inj (had.symm.trans same)
        exact refills
  final := fun computed =>
    have first := left.final computed
    have second := right.final first.1
    ⟨second.1, second.2.trans first.2⟩

variable {node : Node}

theorem livesOn_stored (absent : node.storage = none) (pending : node.computed = false)
    : node.LivesOn arith (node.stored node.zeroed) where
  continues := node.continues_stored _
  memory := fun before had => by simp [absent] at had
  taken := fun _ after had => Or.inl (Option.some.inj had).symm
  final := fun computed => by simp [pending] at computed

/-- A kernel fills memory that is there and the node is computed. -/
theorem livesOn_filled {kernel : Executable} {sources : List Storage} {out written : Storage}
    (had : node.storage = some out) (pending : node.computed = false)
    (ran : kernel.invoke arith out sources = .ok written)
    : node.LivesOn arith (node.stored written).finished where
  continues := (node.continues_stored written).trans (Node.continues_finished _)
  memory := by
    intro before has
    obtain rfl := Option.some.inj (had.symm.trans has)
    exact ⟨written, rfl, Or.inr ⟨pending, rfl, kernel, sources, ran⟩⟩
  taken := fun absent => by simp [absent] at had
  final := fun computed => by simp [pending] at computed

theorem livesOn_finished (node : Node) : node.LivesOn arith node.finished where
  continues := node.continues_finished
  memory := fun before had => ⟨before, had, Or.inl rfl⟩
  taken := fun absent after had => by
    have none : node.storage = some after := had
    simp [absent] at none
  final := fun _ => ⟨rfl, rfl⟩

end Node

-----------------------------------------------------------------------------------------
-- Graphs
-----------------------------------------------------------------------------------------

namespace Graph

/-- A graph as it is later: it keeps to the rules and all its nodes live on at their places. -/
structure LivesOn (arith : Arithmetic) (old new : Graph) : Prop where
  wellFormed : new.WellFormed
  id : new.id = old.id
  nodes
    : ∀ (position : Nat) (node : Node), old.nodes[position]? = some node →
        ∃ later, new.nodes[position]? = some later ∧ node.LivesOn arith later

variable {graph final : Graph} {position : Nat}

theorem WellFormed.livesOn (wf : graph.WellFormed) : graph.LivesOn arith graph :=
  ⟨wf, rfl, fun _ node found => ⟨node, found, .refl node⟩⟩

theorem LivesOn.trans {first second third : Graph} (left : first.LivesOn arith second)
    (right : second.LivesOn arith third)
    : first.LivesOn arith third := by
  refine ⟨right.wellFormed, right.id.trans left.id, ?_⟩
  intro position node found
  obtain ⟨middle, foundMiddle, lives⟩ := left.nodes position node found
  obtain ⟨last, foundLast, livesOn⟩ := right.nodes position middle foundMiddle
  exact ⟨last, foundLast, lives.trans livesOn⟩

theorem LivesOn.extends_ {old new : Graph} (lives : old.LivesOn arith new) : old.Extends new := by
  refine ⟨lives.id, ?_⟩
  intro position node found
  obtain ⟨later, foundLater, livesOn⟩ := lives.nodes position node found
  exact ⟨later, foundLater, livesOn.continues⟩

/-- A graph lives on with a node that does. -/
theorem WellFormed.livesOn_updateNode (wf : graph.WellFormed) {change : Node → Node}
    (keeps
      : ∀ node, graph.nodes[position]? = some node → node.WellFormed graph position →
          node.LivesOn arith (change node) ∧ (change node).WellFormed graph position)
    : graph.LivesOn arith (graph.updateNode position change) where
  wellFormed := wf.updateNode fun node found nodeWf =>
    ⟨(keeps node found nodeWf).1.continues, (keeps node found nodeWf).2⟩
  id := rfl
  nodes := by
    intro other node found
    rw [Graph.updateNode, Array.getElem?_modify, found]
    by_cases same : position = other
    · subst same
      exact ⟨change node, by simp, (keeps node found (wf position node found)).1⟩
    · exact ⟨node, by simp [same], .refl node⟩

theorem updateNode_updateNode (graph : Graph) (position : Nat) (first second : Node → Node)
    : (graph.updateNode position first).updateNode position second
      = graph.updateNode position (second ∘ first) := by
  have nodes
      : (graph.nodes.modify position first).modify position second
        = graph.nodes.modify position (second ∘ first) := by
    refine Array.ext_getElem? fun other => ?_
    simp only [Array.getElem?_modify]
    split
    · rw [Option.map_map]
    · rfl
  simp only [updateNode, nodes]

/-- A node without memory is not computed. -/
theorem WellFormed.pending_of_absent (wf : graph.WellFormed) {node : Node}
    (found : graph.nodes[position]? = some node) (absent : node.storage = none)
    : node.computed = false := by
  refine Bool.eq_false_iff.mpr fun computed => ?_
  have allocated := (wf position node found).computed computed
  rw [absent] at allocated
  cases allocated

/-- A graph lives on when memory is taken. -/
theorem Allocates.livesOn {storage : Storage} (allocates : graph.Allocates position storage final)
    (wf : graph.WellFormed)
    : graph.LivesOn arith final := by
  cases allocates with
  | kept => exact wf.livesOn
  | taken node found absent zeroed =>
      subst zeroed
      refine wf.livesOn_updateNode ?_
      intro other foundOther otherWf
      obtain rfl := Option.some.inj (found.symm.trans foundOther)
      exact ⟨Node.livesOn_stored absent (wf.pending_of_absent found absent),
        otherWf.stored rfl Array.size_replicate⟩

/-- Memory that a node has is had when memory is taken for it, and nothing changes. -/
theorem outcome_allocate {node : Node} (found : graph.nodes[position]? = some node)
    {storage : Storage} (had : node.storage = some storage)
    : outcome (allocate position) graph = (.ok storage, graph) := by
  refine Ends.outcome_eq ?_
  simp only [allocate, ends_bind, ends_get, found, had, ends_pure]

/-- A graph lives on when memory is taken for a node, or there is none. -/
theorem allocate_livesOn (wf : graph.WellFormed) (position : Nat)
    : graph.LivesOn arith (outcome (allocate position) graph).2 := by
  refine Ends.final (graph.LivesOn arith) ((allocate_ends position graph).mono ?_ ?_)
  · exact fun _ _ allocates => allocates.livesOn wf
  · rintro _ _ rfl
    exact wf.livesOn

/-- A graph lives on when the host gives other amounts of memory. -/
theorem serve_livesOn (wf : graph.WellFormed) (memory : (node bytes : Nat) → Bool)
    : graph.LivesOn arith (outcome (serve memory) graph).2 :=
  ⟨(serve_later wf memory).1, rfl, fun _ node found => ⟨node, found, .refl node⟩⟩

/-- A graph lives on when a node is marked, or marking fails. -/
theorem markComputed_livesOn (wf : graph.WellFormed) (position : Nat)
    : graph.LivesOn arith (outcome (markComputed position) graph).2 := by
  refine Ends.final (graph.LivesOn arith) ((markComputed_ends position graph).mono ?_ ?_)
  · rintro _ _ ⟨allocated, rfl⟩
    refine wf.livesOn_updateNode fun node found nodeWf => ⟨node.livesOn_finished, ?_⟩
    rw [isAllocated, storage?, found] at allocated
    exact nodeWf.finished allocated
  · rintro _ _ rfl
    exact wf.livesOn

/-- A graph lives on when a kernel fills the memory of a node and the node is marked. -/
theorem WellFormed.livesOn_filled (wf : graph.WellFormed) {node : Node}
    (found : graph.nodes[position]? = some node) {kernel : Executable} {sources : List Storage}
    {out written : Storage} (had : node.storage = some out) (pending : node.computed = false)
    (ran : kernel.invoke arith out sources = .ok written)
    : graph.LivesOn arith
        ((graph.updateNode position (·.stored written)).updateNode position Node.finished) := by
  rw [updateNode_updateNode]
  refine wf.livesOn_updateNode ?_
  intro other foundOther otherWf
  obtain rfl := Option.some.inj (found.symm.trans foundOther)
  obtain ⟨type, size⟩ := Executable.shape_of_invoke ran
  obtain ⟨fitType, fitSize⟩ := otherWf.storage out had
  exact ⟨Node.livesOn_filled had pending ran,
    (otherWf.stored (type.trans fitType) (size.trans fitSize)).finished rfl⟩

end Graph

/-- What a call of a builder makes stands behind the nodes that were there. -/
theorem BuildCall.Makes.kept {call : BuildCall} {graph final : Graph} {result : Buffer}
    (makes : call.Makes graph result final) {position : Nat} (below : position < graph.size)
    : final.nodes[position]? = graph.nodes[position]? := by
  cases call with
  | ofArray _ dtype data shape =>
      obtain ⟨_, _, rfl, _⟩ := makes
      rw [Graph.push, Array.getElem?_push_lt below, Array.getElem?_eq_getElem below]
  | _ => exact makes.defers.kept position below

/-- A graph lives on when a builder is called, however the call ends. -/
theorem BuildCall.step_livesOn {graph : Graph} (wf : graph.WellFormed) {call : BuildCall}
    (own : call.graph = graph.id)
    (held : ∀ operand ∈ call.operands, operand.graph = graph.id → operand.In graph)
    : graph.LivesOn arith (outcome call.step graph).2 := by
  refine Ends.final (graph.LivesOn arith) ((call.step_ends wf own held).mono ?_ ?_)
  · intro result final makes
    obtain ⟨kept, later, _⟩ := makes.keeps wf
    refine ⟨kept, later.id, ?_⟩
    intro position node found
    have below := (Array.getElem?_eq_some_iff.mp found).1
    exact ⟨node, (makes.kept below).trans found, .refl node⟩
  · rintro _ _ rfl
    exact wf.livesOn

-----------------------------------------------------------------------------------------
-- Workspaces
-----------------------------------------------------------------------------------------

namespace Workspace

/-- All graphs live on. -/
def LivesOn (arith : Arithmetic) (old new : Workspace) : Prop :=
  ∀ id, (old.graph id).LivesOn arith (new.graph id)

variable {workspace : Workspace}

theorem WellFormed.livesOn (wf : workspace.WellFormed) : workspace.LivesOn arith workspace :=
  fun id => (wf id).2.livesOn

theorem LivesOn.trans {first second third : Workspace} (left : first.LivesOn arith second)
    (right : second.LivesOn arith third)
    : first.LivesOn arith third :=
  fun id => (left id).trans (right id)

theorem LivesOn.later {old new : Workspace} (lives : old.LivesOn arith new) (wf : old.WellFormed)
    : new.WellFormed ∧ old.Extends new :=
  ⟨fun id => ⟨(lives id).id.trans (wf id).1, (lives id).wellFormed⟩, fun id => (lives id).extends_⟩

/-- A workspace lives on when the graph that a step is taken on does. -/
theorem WellFormed.livesOn_build {α : Type} (wf : workspace.WellFormed) {id : Nat} {step : Build α}
    (lives : (workspace.graph id).LivesOn arith (outcome step (workspace.graph id)).2)
    : workspace.LivesOn arith (workspace.build id step).2 :=
  forall_graph_build (motive := fun other graph => (workspace.graph other).LivesOn arith graph)
    (fun other => wf.livesOn other) lives

end Workspace

-----------------------------------------------------------------------------------------
-- Plans
-----------------------------------------------------------------------------------------

variable {workspace : Workspace}

/-- A step on one graph answers as it does on the graph. -/
theorem Execution.onGraph_result {α : Type} (id : Nat) (step : Build α) (workspace : Workspace)
    : Ends (onGraph id step) workspace
        (fun value _ => (outcome step (workspace.graph id)).1 = .ok value) (fun _ _ => True) := by
  simp only [onGraph, ends_bind, ends_get, ends_set]
  split
  · next value given => exact given
  · trivial

/-- Memory that is taken is the memory of a node that is there. -/
theorem Execution.allocate_livesOn (wf : workspace.WellFormed) (id position : Nat)
    : Ends (onGraph id (Graph.allocate position)) workspace
        (fun storage final =>
          workspace.LivesOn arith final
          ∧ ∃ node,
              (final.graph id).nodes[position]? = some node
              ∧ node.storage = some storage
              ∧ node.computed = (workspace.graph id).isComputed position)
        (fun _ final => workspace.LivesOn arith final) := by
  have lives : workspace.LivesOn arith (workspace.build id (Graph.allocate position)).2 :=
    wf.livesOn_build (Graph.allocate_livesOn (wf id).2 position)
  refine ((onGraph_result id _ workspace).and (onGraph_final id _ workspace)).mono ?_ ?_
  · rintro storage _ ⟨taken, rfl⟩
    have allocates := (Graph.allocate_ends position (workspace.graph id)).of_ok taken
    obtain ⟨_, there, _⟩ := allocates.storage_fits (wf id).2
    obtain ⟨node, found, had⟩ := Option.bind_eq_some_iff.mp allocates.storage?_eq
    have same := allocates.isComputed_eq position
    rw [Graph.isComputed, found] at same
    refine ⟨lives, node, ?_, had, same⟩
    rw [Workspace.graph_build, if_pos ⟨rfl, Workspace.lt_size_of_found there⟩]
    exact found
  · rintro _ _ ⟨_, rfl⟩
    exact lives

/-- A kernel fills memory that was taken, and marking its node does not fail. -/
theorem Execution.fill_livesOn (wf : workspace.WellFormed) {buffer : Buffer} {node : Node}
    (found : (workspace.graph buffer.graph).nodes[buffer.node]? = some node) {kernel : Executable}
    {sources : List Storage} {out written : Storage} (had : node.storage = some out)
    (pending : node.computed = false) (ran : kernel.invoke arith out sources = .ok written)
    : Ends (onGraph buffer.graph (Graph.markComputed buffer.node))
        (workspace.withStorage buffer written)
        (fun _ final => workspace.LivesOn arith final)
        (fun _ final => workspace.LivesOn arith final) := by
  have marked := Graph.markComputed_of_allocated (Graph.isAllocated_stored found written)
  refine (onGraph_stored_ends (Workspace.lt_size_of_found found) marked).mono ?_ ?_
  · rintro _ final ⟨same, others⟩ id
    by_cases own : id = buffer.graph
    · subst own
      rw [same]
      exact (wf _).2.livesOn_filled found had pending ran
    · rw [others id own]
      exact wf.livesOn id
  · rintro _ _ ⟨⟨_, _, none⟩, _⟩
    exact none.elim

/-- A step of a plan lets all nodes live on, whatever its kernel is and however it ends. -/
theorem PlanStep.execute_livesOn (wf : workspace.WellFormed) (step : PlanStep)
    : Ends (step.execute arith) workspace (fun _ final => workspace.LivesOn arith final)
        (fun _ final => workspace.LivesOn arith final) := by
  simp only [execute, ends_bind, ends_get]
  split
  · exact wf.livesOn
  · next pending =>
      simp only [ends_bind, ends_liftExcept]
      split
      · refine (Execution.allocate_livesOn wf _ _).mono ?_ (fun _ _ lives => lives)
        rintro out middle ⟨lives, node, found, had, same⟩
        split
        · next written ran =>
            have waiting := same.trans (Bool.eq_false_iff.mpr pending)
            exact (Execution.fill_livesOn (lives.later wf).1 found had waiting ran).mono
              (fun _ _ => lives.trans) (fun _ _ => lives.trans)
        · exact lives
      · exact wf.livesOn

/-- A plan lets all nodes live on, wherever it stops, by induction on the plan. -/
theorem Plan.run_livesOn (wf : workspace.WellFormed) (plan : Plan)
    : Ends (plan.run arith) workspace (fun _ final => workspace.LivesOn arith final)
        (fun _ final => workspace.LivesOn arith final) := by
  induction plan generalizing workspace with
  | nil => exact wf.livesOn
  | cons step rest ih =>
      simp only [run, ends_bind]
      refine (step.execute_livesOn wf).mono ?_ (fun _ _ lives => lives)
      intro _ middle lives
      exact (ih (lives.later wf).1).mono (fun _ _ => lives.trans) fun _ _ => lives.trans

end LazyTensor
