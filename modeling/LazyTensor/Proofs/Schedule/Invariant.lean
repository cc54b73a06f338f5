import LazyTensor.Proofs.Schedule.Traversal

/-! What holds of a traversal at every step, and why it comes to an end within its fuel. The
measure counts the visits on the stack and, for each node that was not entered yet, the visits
that entering it can add.
-/

namespace LazyTensor

namespace Traversal

/-- The root is at the bottom of the stack, above it stand nodes that come before it; or it is
done and the last to be listed, unless it was computed already.
-/
inductive Bottom (graph : Graph) (root : Nat) (traversal : Traversal) : Prop
  | waiting (above : List Visit) (entered : Bool)
    (stack : traversal.stack = above ++ [⟨root, entered⟩])
    (fresh : ¬traversal.isVisited root = true) (before : ∀ visit ∈ above, visit.node < root)
  | done (stack : traversal.stack = []) (visited : traversal.isVisited root = true)
    (last
      : graph.isComputed root = true ∨ ∃ task ∈ traversal.tasks.head?, task.target.node = root)

/-- What holds of a traversal from a root at every step. -/
structure Invariant (graph : Graph) (root : Nat) (traversal : Traversal) : Prop where
  needed : ∀ visit ∈ traversal.stack, graph.Needs root visit.node
  /-- What is visited is computed or listed. -/
  settled
    : ∀ position, position < graph.size → traversal.isVisited position = true →
        graph.isComputed position = true ∨ ∃ task ∈ traversal.tasks, task.target.node = position
  /-- What is listed was visited, is needed and waits. -/
  listed
    : ∀ task ∈ traversal.tasks,
        traversal.isVisited task.target.node = true
        ∧ graph.Needs root task.target.node
        ∧ ∃ node operation,
            graph.Waits task.target.node node operation
            ∧ task = graph.task task.target.node node operation
  unique : (traversal.tasks.map (·.target.node)).Nodup
  ordered : graph.SourcesBehind traversal.tasks
  pending : Pending graph traversal.isVisited [] traversal.stack
  bottom : Bottom graph root traversal

variable {graph : Graph} {root : Nat} {visit : Visit} {rest : List Visit}
  {traversal next : Traversal}

-----------------------------------------------------------------------------------------
-- The parts of the invariant, one step further
-----------------------------------------------------------------------------------------

/-- A visit is popped: what follows stands on the stack without it. -/
theorem Invariant.needed_step (inv : Invariant graph root traversal)
    (top : traversal.stack = visit :: rest)
    (advances : Advances graph visit { traversal with stack := rest } next)
    : ∀ visit ∈ next.stack, graph.Needs root visit.node := by
  have needed := inv.needed
  rw [top, List.forall_mem_cons] at needed
  cases advances with
  | pass => exact needed.2
  | computed => exact needed.2
  | finish => exact needed.2
  | enter _ _ waits =>
      intro other member
      simp only [List.mem_append, List.mem_map, List.mem_filter, List.mem_cons] at member
      rcases member with ⟨source, ⟨member, _⟩, rfl⟩ | rfl | member
      · exact .source needed.1 waits member
      · exact needed.1
      · exact needed.2 other member

/-- The sources of an entered node on top of the stack are computed or listed. -/
theorem Invariant.sources_done (orderly : graph.Orderly) (inv : Invariant graph root traversal)
    (top : traversal.stack = visit :: rest) (entered : visit.entered = true)
    {node : Node} {operation : Operation} (waits : graph.Waits visit.node node operation)
    : ∀ source ∈ operation.sources,
        graph.isComputed source.node = true
        ∨ ∃ task ∈ traversal.tasks, task.target.node = source.node := by
  intro source member
  have pending := inv.pending
  rw [top] at pending
  have inside := (Array.getElem?_eq_some_iff.mp waits.found).1
  have before := orderly.source_lt waits member
  rcases (pending.1 entered).1 node operation waits source member with visited | above
  · exact inv.settled source.node (before.trans inside) visited
  · cases above

/-- What a step makes visited is computed or listed. -/
theorem Invariant.settled_step (inv : Invariant graph root traversal)
    (advances : Advances graph visit { traversal with stack := rest } next)
    : ∀ position, position < graph.size → next.isVisited position = true →
        graph.isComputed position = true
        ∨ ∃ task ∈ next.tasks, task.target.node = position := by
  intro position inside visited
  cases advances with
  | pass => exact inv.settled position inside visited
  | computed final =>
      rcases (isVisited_mark _ _ _).mp visited with rfl | before
      · exact Or.inl final
      · exact inv.settled position inside before
  | finish =>
      rcases (isVisited_mark _ _ _).mp visited with rfl | before
      · exact Or.inr ⟨_, List.mem_cons_self, rfl⟩
      · rcases inv.settled position inside before with final | ⟨task, member, target⟩
        · exact Or.inl final
        · exact Or.inr ⟨task, List.mem_cons_of_mem _ member, target⟩
  | enter => exact inv.settled position inside visited

/-- The tasks that a step leaves are those that were there, or one more that was not visited. -/
theorem Invariant.listed_step (orderly : graph.Orderly) (inv : Invariant graph root traversal)
    (top : traversal.stack = visit :: rest)
    (advances : Advances graph visit { traversal with stack := rest } next)
    : (∀ task ∈ next.tasks,
        next.isVisited task.target.node = true
        ∧ graph.Needs root task.target.node
        ∧ ∃ node operation,
            graph.Waits task.target.node node operation
            ∧ task = graph.task task.target.node node operation)
      ∧ (next.tasks.map (·.target.node)).Nodup
      ∧ graph.SourcesBehind next.tasks := by
  have before
      : ∀ task ∈ traversal.tasks,
          next.isVisited task.target.node = true
          ∧ graph.Needs root task.target.node
          ∧ ∃ node operation,
              graph.Waits task.target.node node operation
              ∧ task = graph.task task.target.node node operation := by
    intro task member
    obtain ⟨visited, known⟩ := inv.listed task member
    exact ⟨advances.visited_mono visited, known⟩
  cases advances with
  | pass => exact ⟨before, inv.unique, inv.ordered⟩
  | computed => exact ⟨before, inv.unique, inv.ordered⟩
  | @finish node operation fresh entered waits =>
      have needed : graph.Needs root visit.node := inv.needed visit (by simp [top])
      have done := inv.sources_done orderly top entered waits
      refine ⟨?_, ?_, ?_, inv.ordered⟩
      · refine List.forall_mem_cons.mpr ⟨?_, before⟩
        exact ⟨(isVisited_mark _ _ _).mpr (Or.inl rfl), needed, node, operation, waits, rfl⟩
      · refine List.nodup_cons.mpr ⟨?_, inv.unique⟩
        intro listed
        obtain ⟨task, member, target⟩ := List.mem_map.mp listed
        have visited := (inv.listed task member).1
        rw [target] at visited
        exact fresh visited
      · intro source member
        obtain ⟨recorded, recordedMember, rfl⟩ := List.mem_map.mp member
        exact done recorded recordedMember
  | enter => exact ⟨before, inv.unique, inv.ordered⟩

/-- What stands above the entered nodes after a step still guards them. -/
theorem Invariant.pending_step (orderly : graph.Orderly) (inv : Invariant graph root traversal)
    (top : traversal.stack = visit :: rest)
    (advances : Advances graph visit { traversal with stack := rest } next)
    : Pending graph next.isVisited [] next.stack := by
  have pending := inv.pending
  rw [top] at pending
  -- A node that is visited after the step need not stand above the others any more.
  have visited_top (marked : next.isVisited visit.node = true)
      : Carries traversal.isVisited [visit.node] next.isVisited [] := by
    refine ⟨?_, by simp⟩
    intro position known
    rcases known with visited | above
    · exact Or.inl (advances.visited_mono visited)
    · exact Or.inl (List.mem_singleton.mp above ▸ marked)
  cases advances with
  | pass visited => exact pending.2.carry (visited_top visited)
  | computed => exact pending.2.carry (visited_top ((isVisited_mark _ _ _).mpr (Or.inl rfl)))
  | finish => exact pending.2.carry (visited_top ((isVisited_mark _ _ _).mpr (Or.inl rfl)))
  | @enter node operation _ _ waits =>
      have fresh
          : ∀ position,
              position ∈ ((operation.sources.filter
                (!traversal.isVisited ·.node)).map (·.node)).reverse ++ []
                ↔ ∃ source ∈ operation.sources,
                    ¬traversal.isVisited source.node = true ∧ source.node = position := by
        simp [and_assoc]
      refine pending_append.mpr ⟨?_, pending.2.carry ?_⟩
      · intro _
        constructor
        · intro other another waitsOther source member
          obtain ⟨_, rfl⟩ := waits.unique waitsOther
          by_cases visited : traversal.isVisited source.node = true
          · exact Or.inl visited
          · exact Or.inr ((fresh _).mpr ⟨source, member, visited, rfl⟩)
        · intro other above
          obtain ⟨source, member, _, rfl⟩ := (fresh other).mp above
          exact orderly.source_lt waits member
      · refine ⟨?_, ?_⟩
        · intro position known
          rcases known with visited | above
          · exact Or.inl visited
          · exact Or.inr (List.mem_cons.mpr (Or.inl (List.mem_singleton.mp above)))
        · intro position above
          refine ⟨visit.node, by simp, ?_⟩
          rcases List.mem_cons.mp above with rfl | above
          · exact Nat.le_refl _
          · obtain ⟨source, member, _, rfl⟩ := (fresh position).mp above
            exact (orderly.source_lt waits member).le

/-- The root stays at the bottom until it is done. -/
theorem Invariant.bottom_step (orderly : graph.Orderly) (inv : Invariant graph root traversal)
    (top : traversal.stack = visit :: rest)
    (advances : Advances graph visit { traversal with stack := rest } next)
    : Bottom graph root next := by
  rcases inv.bottom with ⟨above, entered, stack, fresh, before⟩ | ⟨stack, _, _⟩
  · rw [top] at stack
    cases above with
    -- The step is on the root itself, which is done with it or entered by it.
    | nil =>
        obtain ⟨rfl, rfl⟩ := List.cons.inj stack
        cases advances with
        | pass visited => exact absurd visited fresh
        | computed final =>
            exact .done rfl ((isVisited_mark _ _ _).mpr (Or.inl rfl)) (Or.inl final)
        | finish =>
            exact .done rfl ((isVisited_mark _ _ _).mpr (Or.inl rfl)) (Or.inr ⟨_, rfl, rfl⟩)
        | enter _ _ waits =>
            refine .waiting _ true rfl fresh ?_
            intro other member
            obtain ⟨source, filtered, rfl⟩ := List.mem_map.mp member
            exact orderly.source_lt waits (List.mem_of_mem_filter filtered)
    | cons first above =>
        obtain ⟨rfl, rfl⟩ := List.cons.inj stack
        obtain ⟨first, before⟩ := List.forall_mem_cons.mp before
        have fresh_mark : ¬(traversal.mark visit.node).isVisited root = true := by
          intro visited
          rcases (isVisited_mark _ _ _).mp visited with rfl | visited
          · exact Nat.lt_irrefl _ first
          · exact fresh visited
        cases advances with
        | pass => exact .waiting above entered rfl fresh before
        | computed => exact .waiting above entered rfl fresh_mark before
        | finish => exact .waiting above entered rfl fresh_mark before
        | enter _ _ waits =>
            refine .waiting _ entered (List.append_assoc _ (⟨visit.node, true⟩ :: above) _).symm
              fresh ?_
            intro other member
            simp only [List.mem_append, List.mem_map, List.mem_filter, List.mem_cons] at member
            rcases member with ⟨source, ⟨member, _⟩, rfl⟩ | rfl | member
            · exact (orderly.source_lt waits member).trans first
            · exact first
            · exact before other member
  · rw [top] at stack
    cases stack

/-- A step keeps the invariant. -/
theorem Invariant.step (orderly : graph.Orderly) (inv : Invariant graph root traversal)
    (top : traversal.stack = visit :: rest)
    (advances : Advances graph visit { traversal with stack := rest } next)
    : Invariant graph root next where
  needed := inv.needed_step top advances
  settled := inv.settled_step advances
  listed := (inv.listed_step orderly top advances).1
  unique := (inv.listed_step orderly top advances).2.1
  ordered := (inv.listed_step orderly top advances).2.2
  pending := inv.pending_step orderly top advances
  bottom := inv.bottom_step orderly top advances

-----------------------------------------------------------------------------------------
-- An end within the fuel
-----------------------------------------------------------------------------------------

/-- The visits that entering a node can add: one for each source and one to finish it. -/
def cost (graph : Graph) (position : Nat) : Nat :=
  1 + ((graph.nodes[position]?.map Node.sourceCount).getD 0)

/-- A node that was neither visited nor entered. -/
def Unopened (traversal : Traversal) (position : Nat) : Prop :=
  ¬traversal.isVisited position = true ∧ ⟨position, true⟩ ∉ traversal.stack

instance (traversal : Traversal) (position : Nat) : Decidable (traversal.Unopened position) :=
  inferInstanceAs (Decidable (_ ∧ _))

/-- The visits that entering nodes can still add. -/
def debt (graph : Graph) (traversal : Traversal) : Nat :=
  ∑ position ∈ Finset.range graph.size with traversal.Unopened position, cost graph position

/-- The visits that are left: those on the stack and those that entering nodes can add. -/
def potential (graph : Graph) (traversal : Traversal) : Nat :=
  traversal.stack.length + debt graph traversal

theorem debt_mono (opened : ∀ position, next.Unopened position → traversal.Unopened position)
    : debt graph next ≤ debt graph traversal :=
  Finset.sum_le_sum_of_subset
    (Finset.monotone_filter_right _ fun position _ => opened position)

/-- A node that was opened no longer adds its visits. -/
theorem debt_open {position : Nat} (inside : position < graph.size)
    (before : traversal.Unopened position)
    (opened : ∀ other, next.Unopened other → traversal.Unopened other ∧ other ≠ position)
    : cost graph position + debt graph next ≤ debt graph traversal := by
  have member : position ∈ (Finset.range graph.size).filter traversal.Unopened := by
    simp [inside, before]
  rw [debt, debt, ← Finset.add_sum_erase _ _ member]
  refine Nat.add_le_add_left (Finset.sum_le_sum_of_subset ?_) _
  intro other found
  simp only [Finset.mem_filter, Finset.mem_erase] at found ⊢
  exact ⟨(opened other found.2).2, found.1, (opened other found.2).1⟩

/-- Popping a visit whose node is visited, or was not entered, leaves fewer visits. -/
theorem potential_pop (top : traversal.stack = visit :: rest)
    (advances : Advances graph visit { traversal with stack := rest } next)
    (stack : next.stack = rest)
    (marked : visit.entered = true → next.isVisited visit.node = true)
    : potential graph next < potential graph traversal := by
  have fewer : debt graph next ≤ debt graph traversal := by
    refine debt_mono ?_
    intro position given
    rcases given with ⟨fresh, absent⟩
    refine ⟨fun visited => fresh (advances.visited_mono visited), ?_⟩
    rw [stack] at absent
    rw [top, List.mem_cons, not_or]
    refine ⟨?_, absent⟩
    intro same
    subst same
    exact fresh (marked rfl)
  simp only [potential, stack, top, List.length_cons]
  omega

/-- Entering a node adds no more visits than it costs, since it was not entered before: an
entered node comes after everything above it.
-/
theorem Invariant.potential_enter (inv : Invariant graph root traversal)
    (top : traversal.stack = visit :: rest) {node : Node} {operation : Operation}
    (fresh : ¬traversal.isVisited visit.node = true) (entered : visit.entered = false)
    (waits : graph.Waits visit.node node operation) {sources : List Source}
    (few : sources.length ≤ operation.sources.length)
    (stack : next.stack = sources.map (⟨·.node, false⟩) ++ ⟨visit.node, true⟩ :: rest)
    (same : next.visited = traversal.visited)
    : potential graph next < potential graph traversal := by
  have pending := inv.pending
  rw [top] at pending
  have inside := (Array.getElem?_eq_some_iff.mp waits.found).1
  have notTop (position : Nat) : (⟨position, true⟩ : Visit) ≠ visit := by
    intro same
    subst same
    cases entered
  -- Were the node entered already, it would come after itself.
  have unopened : traversal.Unopened visit.node := by
    refine ⟨fresh, ?_⟩
    rw [top, List.mem_cons, not_or]
    refine ⟨notTop _, fun member => ?_⟩
    exact Nat.lt_irrefl _ (pending.2.lt_of_entered member visit.node (by simp))
  have fewer : cost graph visit.node + debt graph next ≤ debt graph traversal := by
    refine debt_open inside unopened ?_
    intro other given
    rcases given with ⟨unvisited, absent⟩
    rw [stack, List.mem_append, not_or, List.mem_cons, not_or] at absent
    rw [isVisited, same] at unvisited
    refine ⟨⟨unvisited, ?_⟩, ?_⟩
    · rw [top, List.mem_cons, not_or]
      exact ⟨notTop other, absent.2.2⟩
    · intro same
      subst same
      exact absent.2.1 rfl
  have paid : cost graph visit.node = 1 + operation.sources.length := by
    simp [cost, waits.found, Node.sourceCount, waits.made]
  simp only [potential, stack, top, List.length_append, List.length_map, List.length_cons]
  omega

/-- A step takes a visit from those that are left. -/
theorem Invariant.potential_step (inv : Invariant graph root traversal)
    (top : traversal.stack = visit :: rest)
    (advances : Advances graph visit { traversal with stack := rest } next)
    : potential graph next < potential graph traversal := by
  have steps := advances
  cases advances with
  | pass visited => exact potential_pop top steps rfl fun _ => visited
  | computed =>
      exact potential_pop top steps rfl fun _ => (isVisited_mark _ _ _).mpr (Or.inl rfl)
  | finish =>
      exact potential_pop top steps rfl fun _ => (isVisited_mark _ _ _).mpr (Or.inl rfl)
  | enter fresh entered waits =>
      exact inv.potential_enter top fresh entered waits (List.length_filter_le _ _) rfl rfl

/-- A traversal that holds the invariant ends with an empty stack when its fuel covers the
visits that are left, by induction on the fuel.
-/
theorem run_ok (orderly : graph.Orderly) (inside : root < graph.size) (fuel : Nat)
    (inv : Invariant graph root traversal) (enough : potential graph traversal ≤ fuel)
    : ∃ done,
        run graph fuel traversal = .ok done ∧ done.stack = [] ∧ Invariant graph root done := by
  induction fuel generalizing traversal with
  | zero =>
      have empty : traversal.stack = [] := by
        refine List.eq_nil_of_length_eq_zero ?_
        rw [potential] at enough
        omega
      exact ⟨traversal, rfl, empty, inv⟩
  | succ fuel ih =>
      rw [run]
      cases top : traversal.stack with
      | nil => exact ⟨traversal, rfl, top, inv⟩
      | cons visit rest =>
          have visible := (orderly.needs_le inside (inv.needed visit (by simp [top]))).2
          obtain ⟨next, advanced, advances⟩ :=
            advance_ok orderly visible { traversal with stack := rest }
          have less := inv.potential_step top advances
          obtain ⟨done, ran, empty, final⟩ :=
            ih (inv.step orderly top advances) (Nat.le_of_lt_succ (less.trans_le enough))
          refine ⟨done, ?_, empty, final⟩
          simp only [advanced, bind, Except.bind, ran]

end Traversal

end LazyTensor
