import LazyTensor.Proofs.Schedule.Invariant
import LazyTensor.Proofs.Workspace.Reachable

/-! What a schedule promises. On every graph that callers can build, whatever has been computed
so far, a schedule is made for every buffer; it lists what is needed and waits, each node once
and after its sources, with what the node records.
-/

namespace LazyTensor

/-- What the schedule of a node of a graph promises. -/
structure Schedule.Contract (graph : Graph) (root : Nat) (schedule : Schedule) : Prop where
  /-- No node is the target of two tasks. -/
  unique : (schedule.map (·.target.node)).Nodup
  /-- The targets are the nodes that the root leads to, through nodes that are not computed, and
  that are not computed themselves.
  -/
  targets
    : ∀ position,
        position ∈ schedule.map (·.target.node)
          ↔ graph.Needs root position ∧ graph.isComputed position = false
  /-- Every source is computed or the target of an earlier task. -/
  ordered
    : ∀ before task after, schedule = before ++ task :: after →
        ∀ source ∈ task.sources,
          graph.isComputed source.node = true
          ∨ ∃ earlier ∈ before, earlier.target.node = source.node
  empty_iff : schedule = [] ↔ graph.isComputed root = true
  /-- Unless it is computed, the root comes last. -/
  last
    : graph.isComputed root = false → ∃ task ∈ schedule.getLast?, task.target.node = root
  /-- Every task carries the operation that its node records. -/
  operation
    : ∀ task ∈ schedule,
        ∃ node,
          graph.nodes[task.target.node]? = some node ∧ node.producer = some task.operation
  /-- Every target is the node as it lies in its own storage. -/
  target : ∀ task ∈ schedule, graph.nodeView task.target.node = some task.target
  /-- The sources are those of the operation, in its order and under the recorded views. -/
  sources : ∀ task ∈ schedule, task.sources = task.operation.sources.map graph.sourceView

namespace Traversal

/-- The traversal that starts at a node. -/
def start (graph : Graph) (root : Nat) : Traversal :=
  ⟨[⟨root, false⟩], Array.replicate graph.size false, []⟩

theorem isVisited_start {graph : Graph} {root position : Nat} (inside : position < graph.size)
    : ¬(start graph root).isVisited position = true := by
  simp [isVisited, start, Array.getD_eq_getD_getElem?, inside]

/-- The invariant holds at the start. -/
theorem invariant_start {graph : Graph} {root : Nat} (inside : root < graph.size)
    : Invariant graph root (start graph root) where
  needed := by
    intro visit member
    rw [List.mem_singleton.mp member]
    exact .root
  settled := fun _ below visited => absurd visited (isVisited_start below)
  listed := by simp [start]
  unique := List.nodup_nil
  ordered := trivial
  pending := ⟨by simp, trivial⟩
  bottom := .waiting [] false rfl (isVisited_start inside) (by simp)

/-- The costs of all entries of a list, by induction on it. -/
theorem sum_cost_list (nodes : List Node)
    : ∑ position ∈ Finset.range nodes.length,
          (1 + ((nodes[position]?.map Node.sourceCount).getD 0))
      = nodes.length + nodes.foldr (fun node count => node.sourceCount + count) 0 := by
  induction nodes with
  | nil => rfl
  | cons node rest ih =>
      rw [List.length_cons, Finset.sum_range_succ']
      simp only [List.getElem?_cons_succ, List.getElem?_cons_zero, Option.map_some,
        Option.getD_some, List.foldr_cons]
      rw [ih]
      omega

/-- The visits that are left at the start are no more than the fuel of a schedule. -/
theorem potential_start_le (graph : Graph) (root : Nat)
    : potential graph (start graph root) ≤ 1 + graph.size + graph.edgeCount := by
  have all : debt graph (start graph root)
      ≤ ∑ position ∈ Finset.range graph.size, cost graph position :=
    Finset.sum_le_sum_of_subset (Finset.filter_subset _ _)
  have total : ∑ position ∈ Finset.range graph.size, cost graph position
      = graph.size + graph.edgeCount := by
    have listed := sum_cost_list graph.nodes.toList
    simpa only [cost, Graph.size, Graph.edgeCount, Array.length_toList, Array.getElem?_toList]
      using listed
  rw [potential, start, List.length_singleton]
  rw [total] at all
  rw [start] at all
  omega

end Traversal

namespace Graph

/-- A source of a listed task is computed or listed, by induction on the list. -/
theorem SourcesBehind.listed {graph : Graph} {tasks : List Task}
    (behind : graph.SourcesBehind tasks) {task : Task} (member : task ∈ tasks)
    : ∀ source ∈ task.sources,
        graph.isComputed source.node = true
        ∨ ∃ other ∈ tasks, other.target.node = source.node := by
  induction tasks with
  | nil => cases member
  | cons first rest ih =>
      have listed
          : ∀ source ∈ task.sources,
              graph.isComputed source.node = true
              ∨ ∃ other ∈ rest, other.target.node = source.node := by
        rcases List.mem_cons.mp member with rfl | member
        · exact behind.1
        · exact ih behind.2 member
      intro source member
      rcases listed source member with final | ⟨other, inside, same⟩
      · exact Or.inl final
      · exact Or.inr ⟨other, List.mem_cons_of_mem _ inside, same⟩

theorem SourcesBehind.of_append {graph : Graph} {front back : List Task}
    (behind : graph.SourcesBehind (front ++ back))
    : graph.SourcesBehind back := by
  induction front with
  | nil => exact behind
  | cons _ _ ih => exact ih behind.2

/-- A computed node needs nothing but itself. -/
theorem Needs.eq_root {graph : Graph} {root position : Nat}
    (needed : graph.Needs root position) (final : graph.isComputed root = true)
    : position = root := by
  induction needed with
  | root => rfl
  | source _ waits _ ih =>
      subst ih
      rw [waits.isComputed_eq] at final
      cases final

end Graph

namespace Traversal.Invariant

variable {graph : Graph} {root : Nat} {done : Traversal}

/-- A traversal ends with the root: it was computed already, or it was listed last. -/
theorem root_done (inv : Invariant graph root done) (empty : done.stack = [])
    : done.isVisited root = true
      ∧ (graph.isComputed root = true ∨ ∃ task ∈ done.tasks.head?, task.target.node = root) := by
  rcases inv.bottom with ⟨above, entered, stack, _, _⟩ | ⟨_, visited, last⟩
  · simp [empty] at stack
  · exact ⟨visited, last⟩

/-- Whatever is needed is computed or listed in the end, by induction on the way to it. -/
theorem complete (inv : Invariant graph root done) (inside : root < graph.size)
    (visited : done.isVisited root = true) {position : Nat} (needed : graph.Needs root position)
    : graph.isComputed position = true ∨ ∃ task ∈ done.tasks, task.target.node = position := by
  induction needed with
  | root => exact inv.settled root inside visited
  | @source position node operation source needed waits member ih =>
      rcases ih with final | ⟨task, listed, rfl⟩
      · rw [waits.isComputed_eq] at final
        cases final
      · obtain ⟨_, _, other, another, waitsOther, shape⟩ := inv.listed task listed
        obtain ⟨rfl, rfl⟩ := waits.unique waitsOther
        have recorded : graph.sourceView source ∈ task.sources := by
          rw [shape]
          exact List.mem_map_of_mem member
        exact inv.ordered.listed listed _ recorded

theorem not_computed (inv : Invariant graph root done) {task : Task} (member : task ∈ done.tasks)
    : graph.isComputed task.target.node = false := by
  obtain ⟨_, _, _, _, waits, _⟩ := inv.listed task member
  exact waits.isComputed_eq

/-- The tasks of a traversal that has come to its end keep what a schedule promises. -/
theorem contract (inv : Invariant graph root done) (inside : root < graph.size)
    (empty : done.stack = [])
    : Schedule.Contract graph root done.tasks.reverse := by
  obtain ⟨visited, last⟩ := inv.root_done empty
  constructor
  · rw [List.map_reverse]
    exact List.nodup_reverse.mpr inv.unique
  · intro position
    rw [List.map_reverse, List.mem_reverse, List.mem_map]
    constructor
    · intro given
      rcases given with ⟨task, member, rfl⟩
      exact ⟨(inv.listed task member).2.1, inv.not_computed member⟩
    · intro given
      rcases given with ⟨needed, waiting⟩
      rcases inv.complete inside visited needed with final | listed
      · rw [waiting] at final
        cases final
      · exact listed
  · intro before task after split source member
    have turned : done.tasks = after.reverse ++ task :: before.reverse := by
      have same := congrArg List.reverse split
      simpa using same
    have behind := inv.ordered
    rw [turned] at behind
    rcases behind.of_append.1 source member with final | ⟨earlier, inside, same⟩
    · exact Or.inl final
    · exact Or.inr ⟨earlier, List.mem_reverse.mp inside, same⟩
  · rw [List.reverse_eq_nil_iff]
    constructor
    · intro none
      rcases last with final | ⟨task, first, _⟩
      · exact final
      · simp [none] at first
    · intro final
      refine List.eq_nil_iff_forall_not_mem.mpr ?_
      intro task member
      have same := (inv.listed task member).2.1.eq_root final
      have waiting := inv.not_computed member
      rw [same, final] at waiting
      cases waiting
  · intro waiting
    rw [List.getLast?_reverse]
    rcases last with final | found
    · rw [waiting] at final
      cases final
    · exact found
  · intro task member
    obtain ⟨_, _, node, operation, waits, shape⟩ :=
      inv.listed task (List.mem_reverse.mp member)
    refine ⟨node, waits.found, ?_⟩
    rw [shape]
    exact waits.made
  · intro task member
    obtain ⟨_, _, node, operation, waits, shape⟩ :=
      inv.listed task (List.mem_reverse.mp member)
    rw [Graph.nodeView, waits.found, shape]
    rfl
  · intro task member
    obtain ⟨_, _, node, operation, waits, shape⟩ :=
      inv.listed task (List.mem_reverse.mp member)
    rw [shape]
    rfl

end Traversal.Invariant

/-- A node of a graph that keeps to the rules has a schedule. -/
theorem Graph.WellFormed.schedule_ok {graph : Graph} (wf : graph.WellFormed) {root : Nat}
    (inside : root < graph.size)
    : ∃ schedule, graph.schedule root = .ok schedule ∧ Schedule.Contract graph root schedule := by
  obtain ⟨done, ran, empty, inv⟩ :=
    Traversal.run_ok wf.orderly inside _ (Traversal.invariant_start inside)
      (Traversal.potential_start_le graph root)
  refine ⟨done.tasks.reverse, ?_, inv.contract inside empty⟩
  rw [Graph.schedule, ← Traversal.start, ran]
  rfl

/-- A buffer of a graph in a workspace that keeps to the rules has a schedule. -/
theorem Workspace.WellFormed.schedule_ok {workspace : Workspace} (wf : workspace.WellFormed)
    {buffer : Buffer} (has : workspace.Has buffer)
    : ∃ schedule,
        (workspace.graph buffer.graph).schedule buffer.node = .ok schedule
        ∧ Schedule.Contract (workspace.graph buffer.graph) buffer.node schedule := by
  obtain ⟨_, _, node, found, _⟩ := has
  exact (wf buffer.graph).2.schedule_ok (Array.getElem?_eq_some_iff.mp found).1

/-- On every desk that callers can come to, each buffer that is held has a schedule that keeps
its promises.
-/
theorem Desk.Reachable.exists_schedule {desk : Desk} (reached : desk.Reachable)
    {buffer : Buffer} (held : buffer ∈ desk.buffers)
    : ∃ schedule,
        (desk.workspace.graph buffer.graph).schedule buffer.node = .ok schedule
        ∧ Schedule.Contract (desk.workspace.graph buffer.graph) buffer.node schedule := by
  have wf := reached.wellFormed
  exact wf.workspace.schedule_ok (wf.buffers buffer held)

/-- The sums of the sample have a schedule that keeps its promises. -/
theorem Desk.exists_schedule_sample
    : Desk.sampleSums ∈ Desk.sample.buffers
      ∧ ∃ schedule,
          (Desk.sample.workspace.graph 0).schedule 2 = .ok schedule
          ∧ Schedule.Contract (Desk.sample.workspace.graph 0) 2 schedule := by
  have held : Desk.sampleSums ∈ Desk.sample.buffers := by decide
  exact ⟨held, Desk.reachable_sample.exists_schedule held⟩

end LazyTensor
