import LazyTensor.Proofs.Schedule.Postorder

/-! Schedules that are made again after some of their work is done. If the nodes that were computed
in the meantime are closed under sources that wait, then leaving them out of the first schedule
gives the second: wherever the second traversal turns back at a node that is computed by now, all
that the first found below that node is computed by now as well.
-/

namespace LazyTensor

/-- Of the nodes of a graph exactly the chosen ones have been computed in addition. -/
def Graph.ComputedBy (chosen : Finset Nat) (old new : Graph) : Prop :=
  ∀ position, position < old.size →
    (new.isComputed position = true ↔ old.isComputed position = true ∨ position ∈ chosen)

instance (chosen : Finset Nat) (old new : Graph) : Decidable (old.ComputedBy chosen new) :=
  inferInstanceAs (Decidable (∀ position, position < old.size → _))

/-- Some targets of a schedule of a graph, and with each of them its sources that wait. -/
structure Schedule.Closed (graph : Graph) (schedule : Schedule) (chosen : Finset Nat) : Prop where
  listed : ∀ position ∈ chosen, ∃ task ∈ schedule, task.target.node = position
  sources
    : ∀ task ∈ schedule, task.target.node ∈ chosen →
        ∀ source ∈ task.sources,
          graph.isComputed source.node = true ∨ source.node ∈ chosen

/-- The tasks of a schedule whose targets are not among some nodes. -/
def Schedule.without (chosen : Finset Nat) (schedule : Schedule) : Schedule :=
  schedule.filter (·.target.node ∉ chosen)

/-- The targets of the first tasks of a schedule. -/
def Schedule.firstTargets (schedule : Schedule) (count : Nat) : Finset Nat :=
  ((schedule.take count).map (·.target.node)).toFinset

theorem Schedule.mem_firstTargets {schedule : Schedule} {count position : Nat}
    : position ∈ schedule.firstTargets count
      ↔ ∃ task ∈ schedule.take count, task.target.node = position := by
  rw [firstTargets, List.mem_toFinset, List.mem_map]

-----------------------------------------------------------------------------------------
-- Walks that leave nodes out
-----------------------------------------------------------------------------------------

namespace Walk

/-- What a walk would be without some nodes. -/
def without (chosen : Finset Nat) (walk : Walk) : Walk :=
  ⟨walk.visited.filter (· ∉ chosen), walk.tasks.without chosen⟩

variable {chosen : Finset Nat} {walk : Walk} {task : Task}

theorem mem_visited_without {position : Nat}
    : position ∈ (walk.without chosen).visited ↔ position ∈ walk.visited ∧ position ∉ chosen := by
  simp [without]

theorem without_emit_of_mem (left : task.target.node ∈ chosen)
    : (walk.emit task).without chosen = walk.without chosen := by
  simp [without, emit, Schedule.without, left]

theorem without_emit_of_notMem (kept : task.target.node ∉ chosen)
    : (walk.emit task).without chosen = (walk.without chosen).emit task := by
  simp [without, emit, Schedule.without, kept]

end Walk

-----------------------------------------------------------------------------------------
-- The same traversal later on
-----------------------------------------------------------------------------------------

namespace Graph

variable {old new : Graph} {chosen : Finset Nat} {position : Nat} {walk : Walk}

/-- Chosen nodes that wait read chosen nodes and computed ones. -/
def ClosedUnderSources (graph : Graph) (chosen : Finset Nat) : Prop :=
  ∀ position node operation, position ∈ chosen → graph.Waits position node operation →
    ∀ source ∈ operation.sources,
      graph.isComputed source.node = true ∨ source.node ∈ chosen

/-- Below a chosen node only chosen nodes are listed, by induction on the position. -/
theorem Orderly.without_visit (orderly : old.Orderly) (closed : old.ClosedUnderSources chosen)
    (inside : position < old.size) (picked : position ∈ chosen)
    : (old.visit position walk).without chosen = walk.without chosen := by
  induction position using Nat.strong_induction_on generalizing walk with
  | _ position ih =>
      by_cases visited : position ∈ walk.visited
      · rw [visit_of_visited visited]
      rcases orderly.computed_or_waits inside with final | ⟨node, operation, waits⟩
      · rw [visit_of_computed final]
      · rw [orderly.visit_of_waits waits visited, Walk.without_emit_of_mem picked]
        refine visitAll_keeps (motive := fun behind =>
          behind.without chosen = walk.without chosen) rfl ?_
        intro behind same source member
        have before := orderly.source_lt waits member
        rcases closed position node operation picked waits source member with final | below
        · rw [visit_of_computed final, same]
        · rw [ih source.node before (before.trans inside) below, same]

/-- A node that waits and was not chosen waits later on, for the same operation. -/
theorem ComputedBy.waits (computed : old.ComputedBy chosen new) (later : old.Extends new)
    {node : Node} {operation : Operation} (waits : old.Waits position node operation)
    (left : position ∉ chosen)
    : ∃ next, new.Waits position next operation ∧ node.Continues next := by
  obtain ⟨next, found, stays⟩ := later.nodes position node waits.found
  refine ⟨next, ⟨found, ?_, stays.producer.trans waits.made⟩, stays⟩
  refine Bool.eq_false_iff.mpr fun final => ?_
  have known : new.isComputed position = true := by
    rw [isComputed, found]
    exact final
  rcases (computed position waits.inside).mp known with before | picked
  · rw [waits.isComputed_eq] at before
    cases before
  · exact left picked

/-- Visiting a node later on does what it would have done before without the chosen nodes. -/
def Resumes (chosen : Finset Nat) (old new : Graph) (position : Nat) : Prop :=
  ∀ walk, (old.visit position walk).without chosen = new.visit position (walk.without chosen)

/-- Sources that are visited later on do so together, by induction on them. -/
theorem resumes_sources {sources : List Source}
    (each : ∀ source ∈ sources, Resumes chosen old new source.node)
    : (old.visitAll sources walk).without chosen = new.visitAll sources (walk.without chosen) := by
  induction sources generalizing walk with
  | nil => rfl
  | cons source rest ih =>
      rw [List.forall_mem_cons] at each
      rw [visitAll_cons, visitAll_cons, ih each.2, each.1 walk]

/-- The traversal later on is the one before without the chosen nodes, by induction on the
position.
-/
theorem ComputedBy.resumes (computed : old.ComputedBy chosen new) (later : old.Extends new)
    (wf : old.WellFormed) (orderly : new.Orderly) (closed : old.ClosedUnderSources chosen)
    (inside : position < old.size)
    : Resumes chosen old new position := by
  induction position using Nat.strong_induction_on with
  | _ position ih =>
      intro walk
      by_cases picked : position ∈ chosen
      · have final := (computed position inside).mpr (Or.inr picked)
        rw [wf.orderly.without_visit closed inside picked, visit_of_computed final]
      by_cases visited : position ∈ walk.visited
      · have still := Walk.mem_visited_without.mpr ⟨visited, picked⟩
        rw [visit_of_visited visited, visit_of_visited still]
      have fresh : position ∉ (walk.without chosen).visited :=
        fun listed => visited (Walk.mem_visited_without.mp listed).1
      rcases wf.orderly.computed_or_waits inside with final | ⟨node, operation, waits⟩
      · rw [visit_of_computed final,
          visit_of_computed ((computed position inside).mpr (Or.inl final))]
      · obtain ⟨next, waitsOn, stays⟩ := computed.waits later waits picked
        have sources : ∀ source ∈ operation.sources, Resumes chosen old new source.node := by
          intro source member
          have before := wf.orderly.source_lt waits member
          exact ih source.node before (before.trans inside)
        have same := later.task_eq (wf position node waits.found) waits.made stays
        rw [wf.orderly.visit_of_waits waits visited, orderly.visit_of_waits waitsOn fresh,
          Walk.without_emit_of_notMem picked, resumes_sources sources, same]

end Graph

-----------------------------------------------------------------------------------------
-- Schedules
-----------------------------------------------------------------------------------------

namespace Schedule.Contract

variable {graph : Graph} {root : Nat} {schedule : Schedule} {chosen : Finset Nat}

/-- Targets that are closed under the sources of their tasks are so under recorded sources. -/
theorem closedUnderSources (contract : Schedule.Contract graph root schedule)
    (closed : schedule.Closed graph chosen)
    : graph.ClosedUnderSources chosen := by
  intro position node operation picked waits source member
  obtain ⟨task, listed, rfl⟩ := closed.listed position picked
  obtain ⟨other, found, made⟩ := contract.operation task listed
  obtain rfl := Option.some.inj (found.symm.trans waits.found)
  obtain rfl := Option.some.inj (made.symm.trans waits.made)
  have shown : graph.sourceView source ∈ task.sources := by
    rw [contract.sources task listed]
    exact List.mem_map_of_mem member
  exact closed.sources task listed picked _ shown

/-- The first tasks of a schedule read what is computed and each other's targets. -/
theorem closed_take (contract : Schedule.Contract graph root schedule) (count : Nat)
    : schedule.Closed graph (schedule.firstTargets count) where
  listed := by
    intro position member
    obtain ⟨task, first, target⟩ := mem_firstTargets.mp member
    exact ⟨task, List.mem_of_mem_take first, target⟩
  sources := by
    intro task listed member source shown
    obtain ⟨first, inside, target⟩ := mem_firstTargets.mp member
    -- A node is the target of one task only, so the task is among the first ones itself.
    obtain rfl : first = task :=
      List.inj_on_of_nodup_map contract.unique (List.mem_of_mem_take inside) listed target
    obtain ⟨before, after, split⟩ := List.append_of_mem inside
    have whole : schedule = before ++ first :: (after ++ schedule.drop count) := by
      rw [← List.cons_append, ← List.append_assoc, ← split, List.take_append_drop]
    rcases contract.ordered _ _ _ whole source shown with final | ⟨earlier, within, same⟩
    · exact Or.inl final
    · refine Or.inr (mem_firstTargets.mpr ⟨earlier, ?_, same⟩)
      rw [split]
      exact List.mem_append_left _ within

/-- Without the targets of the first tasks the others are left. -/
theorem without_take (contract : Schedule.Contract graph root schedule) (count : Nat)
    : schedule.without (schedule.firstTargets count) = schedule.drop count := by
  have parts := List.take_append_drop count schedule
  have unique := contract.unique
  rw [← parts, List.map_append] at unique
  have apart := List.disjoint_of_nodup_append unique
  have none : without (schedule.firstTargets count) (schedule.take count) = [] := by
    apply List.filter_eq_nil_iff.mpr
    intro task member
    have first := mem_firstTargets.mpr ⟨task, member, rfl⟩
    simpa using first
  have all
      : without (schedule.firstTargets count) (schedule.drop count) = schedule.drop count := by
    apply List.filter_eq_self.mpr
    intro task member
    simp only [decide_not, Bool.not_eq_true', decide_eq_false_iff_not]
    intro first
    obtain ⟨other, inside, same⟩ := mem_firstTargets.mp first
    exact apart (List.mem_map.mpr ⟨other, inside, same⟩) (List.mem_map_of_mem member)
  calc schedule.without (schedule.firstTargets count)
      = without (schedule.firstTargets count) (schedule.take count ++ schedule.drop count) := by
        rw [parts]
    _ = without (schedule.firstTargets count) (schedule.take count)
          ++ without (schedule.firstTargets count) (schedule.drop count) :=
        List.filter_append _ _
    _ = schedule.drop count := by rw [none, all, List.nil_append]

end Schedule.Contract

/-- A schedule that is made after some of its targets were computed, and no other nodes, is the
schedule that was made before without these, if they were closed under sources that wait.
-/
theorem Graph.ComputedBy.schedule_eq {old new : Graph} {chosen : Finset Nat}
    (computed : old.ComputedBy chosen new) (later : old.Extends new) (wf : old.WellFormed)
    (newWf : new.WellFormed) {root : Nat} (inside : root < old.size) {schedule : Schedule}
    (made : old.schedule root = .ok schedule) (closed : schedule.Closed old chosen)
    : new.schedule root = .ok (schedule.without chosen) := by
  obtain ⟨other, scheduled, contract⟩ := wf.schedule_ok inside
  obtain rfl := Except.ok.inj (made.symm.trans scheduled)
  have first := wf.orderly.schedule_eq inside
  obtain rfl := Except.ok.inj (made.symm.trans first)
  obtain ⟨node, found⟩ : ∃ node, old.nodes[root]? = some node :=
    ⟨_, Array.getElem?_eq_getElem inside⟩
  obtain ⟨next, foundNext, _⟩ := later.nodes root node found
  have present := (Array.getElem?_eq_some_iff.mp foundNext).1
  have resumes := computed.resumes later wf newWf.orderly (contract.closedUnderSources closed) inside
  have same := congrArg Walk.tasks (resumes .start)
  rw [newWf.orderly.schedule_eq present]
  exact congrArg Except.ok same.symm

end LazyTensor
