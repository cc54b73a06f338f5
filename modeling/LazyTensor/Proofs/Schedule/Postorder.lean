import LazyTensor.Proofs.Schedule.Contract
import Mathlib.Algebra.GroupWithZero.Nat

/-! Schedules by recursion. The recursive traversal visits the sources of a node in their order and
then lists the node. The traversal with a stack lists the same tasks in the same order: what it
finds on the stack a second time was visited in the meantime, and an entered node is still unvisited
when it comes up again, since only earlier nodes were visited above it. Every listed node costs one
visit more than it has sources.
-/

namespace LazyTensor

/-- The number of sources that the operations of the tasks record, all together. -/
def Schedule.sourceCount (schedule : Schedule) : Nat :=
  (schedule.map (·.operation.sources.length)).sum

-----------------------------------------------------------------------------------------
-- The recursive traversal
-----------------------------------------------------------------------------------------

/-- How far a recursive traversal has come: the nodes that it visited and the tasks that it listed,
in order.
-/
structure Walk where
  visited : List Nat
  tasks : Schedule

namespace Walk

/-- Nothing visited and nothing listed. -/
def start : Walk := ⟨[], []⟩

/-- The walk after a task was listed and its target marked as visited. -/
def emit (walk : Walk) (task : Task) : Walk :=
  ⟨task.target.node :: walk.visited, walk.tasks ++ [task]⟩

/-- One for each task and one for each source of its operation. -/
def effort (walk : Walk) : Nat := walk.tasks.length + walk.tasks.sourceCount

theorem effort_emit (walk : Walk) (task : Task)
    : (walk.emit task).effort = walk.effort + 1 + task.operation.sources.length := by
  simp only [effort, emit, Schedule.sourceCount, List.length_append, List.length_singleton,
    List.map_append, List.sum_append, List.map_singleton, List.sum_singleton]
  omega

end Walk

namespace Graph

/-- Visits a node: one that was visited or is computed is left alone, of any other the sources are
visited in their order and then it is listed. A node is not looked for behind its reader.
-/
def visit (graph : Graph) (position : Nat) (walk : Walk) : Walk :=
  if position ∈ walk.visited then
    walk
  else
    match graph.nodes[position]? with
    | none => walk
    | some node =>
        if node.computed then
          walk
        else
          match node.producer with
          | none => walk
          | some operation =>
              let behind := operation.sources.foldl (fun walk source =>
                if _ : source.node < position then visit graph source.node walk else walk) walk
              behind.emit (graph.task position node operation)
termination_by position

/-- Visits sources in their order. -/
def visitAll (graph : Graph) (sources : List Source) (walk : Walk) : Walk :=
  sources.foldl (fun walk source => graph.visit source.node walk) walk

/-- The tasks of the recursive traversal from a node. -/
def postorder (graph : Graph) (root : Nat) : Schedule := (graph.visit root .start).tasks

variable {graph : Graph} {position : Nat} {walk : Walk}

theorem visitAll_cons (source : Source) (rest : List Source)
    : graph.visitAll (source :: rest) walk
      = graph.visitAll rest (graph.visit source.node walk) :=
  rfl

/-- What every visit keeps is kept when sources are visited. -/
theorem visitAll_keeps {motive : Walk → Prop} {sources : List Source} (start : motive walk)
    (keeps
      : ∀ walk, motive walk → ∀ source ∈ sources, motive (graph.visit source.node walk))
    : motive (graph.visitAll sources walk) :=
  List.foldlRecOn sources _ start keeps

theorem visit_of_visited (visited : position ∈ walk.visited)
    : graph.visit position walk = walk := by
  rw [visit, if_pos visited]

theorem visit_of_computed (final : graph.isComputed position = true)
    : graph.visit position walk = walk := by
  rw [visit]
  split
  · rfl
  · cases found : graph.nodes[position]? with
    | none => rfl
    | some node =>
        rw [isComputed, found] at final
        exact if_pos final

/-- A node that waits is listed after its sources were visited. -/
theorem Orderly.visit_of_waits (orderly : graph.Orderly) {node : Node} {operation : Operation}
    (waits : graph.Waits position node operation) (fresh : position ∉ walk.visited)
    : graph.visit position walk
      = (graph.visitAll operation.sources walk).emit (graph.task position node operation) := by
  have each
      : ∀ (walk : Walk), ∀ source ∈ operation.sources,
          (if _ : source.node < position then graph.visit source.node walk else walk)
            = graph.visit source.node walk :=
    fun _ _ member => dif_pos (orderly.source_lt waits member)
  rw [visit, if_neg fresh, waits.found]
  simp only [waits.computed, waits.made, Bool.false_eq_true, if_false]
  rw [visitAll, List.foldl_ext _ _ _ each]

/-- A node of an orderly graph is computed or waits. -/
theorem Orderly.computed_or_waits (orderly : graph.Orderly) (inside : position < graph.size)
    : graph.isComputed position = true
      ∨ ∃ node operation, graph.Waits position node operation := by
  have found : graph.nodes[position]? = some graph.nodes[position] :=
    Array.getElem?_eq_getElem inside
  cases computed : graph.nodes[position].computed with
  | true =>
      left
      rw [isComputed, found]
      exact computed
  | false =>
      obtain ⟨operation, waits⟩ := orderly.exists_waits found computed
      exact Or.inr ⟨_, operation, waits⟩

theorem Waits.inside {node : Node} {operation : Operation}
    (waits : graph.Waits position node operation)
    : position < graph.size :=
  (Array.getElem?_eq_some_iff.mp waits.found).1

/-- Only the node and nodes before it are visited, by induction on the position. -/
theorem Orderly.visited_visit (orderly : graph.Orderly) (inside : position < graph.size)
    : ∀ other ∈ (graph.visit position walk).visited, other ∈ walk.visited ∨ other ≤ position := by
  induction position using Nat.strong_induction_on generalizing walk with
  | _ position ih =>
      by_cases visited : position ∈ walk.visited
      · rw [visit_of_visited visited]
        exact fun _ => Or.inl
      rcases orderly.computed_or_waits inside with final | ⟨node, operation, waits⟩
      · rw [visit_of_computed final]
        exact fun _ => Or.inl
      · have behind
            : ∀ other ∈ (graph.visitAll operation.sources walk).visited,
                other ∈ walk.visited ∨ other ≤ position := by
          refine visitAll_keeps (motive := fun behind =>
            ∀ other ∈ behind.visited, other ∈ walk.visited ∨ other ≤ position)
            (fun _ => Or.inl) ?_
          intro middle known source member other found
          have before := orderly.source_lt waits member
          rcases ih source.node before (before.trans waits.inside) other found with old | new
          · exact known other old
          · exact Or.inr (new.trans before.le)
        rw [orderly.visit_of_waits waits visited]
        intro other found
        rcases List.mem_cons.mp found with rfl | found
        · exact Or.inr (Nat.le_refl _)
        · exact behind other found

/-- A node is not visited by way of its sources. -/
theorem Orderly.notMem_visitAll (orderly : graph.Orderly) {node : Node} {operation : Operation}
    (waits : graph.Waits position node operation) (fresh : position ∉ walk.visited)
    : position ∉ (graph.visitAll operation.sources walk).visited := by
  refine visitAll_keeps (motive := fun behind => position ∉ behind.visited) fresh ?_
  intro middle absent source member found
  have before := orderly.source_lt waits member
  rcases orderly.visited_visit (before.trans waits.inside) position found with old | new
  · exact absent old
  · omega

end Graph

-----------------------------------------------------------------------------------------
-- Pops
-----------------------------------------------------------------------------------------

namespace Traversal

/-- A traversal goes on by taking so many visits from its stack. -/
inductive Pops (graph : Graph) : Nat → Traversal → Traversal → Prop
  | none (traversal : Traversal) : Pops graph 0 traversal traversal
  | pop {count : Nat} {traversal next last : Traversal} {visit : Visit} {rest : List Visit}
    (top : traversal.stack = visit :: rest)
    (advanced : advance graph visit { traversal with stack := rest } = .ok next)
    (pops : Pops graph count next last)
    : Pops graph (count + 1) traversal last

variable {graph : Graph} {traversal last : Traversal} {count : Nat}

theorem Pops.trans {middle : Traversal} {more : Nat} (first : Pops graph count traversal middle)
    (second : Pops graph more middle last)
    : Pops graph (count + more) traversal last := by
  induction first with
  | none => rwa [Nat.zero_add]
  | pop top advanced _ ih =>
      rw [Nat.add_right_comm]
      exact .pop top advanced (ih second)

/-- A run that empties the stack takes the visits that can be taken, by induction on these. -/
theorem Pops.eq_of_run (pops : Pops graph count traversal last) (empty : last.stack = [])
    {fuel : Nat} {done : Traversal} (ran : run graph fuel traversal = .ok done)
    (ended : done.stack = [])
    : done = last := by
  induction pops generalizing fuel with
  | none traversal =>
      cases fuel with
      | zero => exact (Except.ok.inj ran).symm
      | succ fuel =>
          rw [run, empty] at ran
          exact (Except.ok.inj ran).symm
  | pop top advanced _ ih =>
      cases fuel with
      | zero =>
          obtain rfl := Except.ok.inj ran
          rw [top] at ended
          cases ended
      | succ fuel =>
          rw [run, top] at ran
          simp only [advanced, bind, Except.bind] at ran
          exact ih empty ran

-----------------------------------------------------------------------------------------
-- The stack follows the recursion
-----------------------------------------------------------------------------------------

/-- A traversal with a stack has come as far as a recursive one: both visited the same of the nodes
that are not computed, and both listed the same tasks.
-/
structure Follows (graph : Graph) (traversal : Traversal) (walk : Walk) : Prop where
  visited
    : ∀ position, position < graph.size → graph.isComputed position = false →
        (traversal.isVisited position = true ↔ position ∈ walk.visited)
  tasks : traversal.tasks = walk.tasks.reverse

/-- By so many pops a traversal has come as far as a recursive one. -/
structure Catches (graph : Graph) (traversal : Traversal) (count : Nat) (last : Traversal)
    (walk : Walk)
    : Prop where
  pops : Pops graph count traversal last
  kept : ∀ position, traversal.isVisited position = true → last.isVisited position = true
  follows : Follows graph last walk

variable {walk : Walk} {position : Nat}

theorem Follows.start (root : Nat) : Follows graph (Traversal.start graph root) .start where
  visited := by
    intro position inside _
    have fresh : ¬(Traversal.start graph root).isVisited position = true :=
      isVisited_start inside
    simp [fresh, Walk.start]
  tasks := rfl

/-- What was visited is not visited again by the recursive traversal either. -/
theorem Follows.visit_eq (follows : Follows graph traversal walk) (inside : position < graph.size)
    (visited : traversal.isVisited position = true)
    : graph.visit position walk = walk := by
  cases final : graph.isComputed position with
  | true => exact Graph.visit_of_computed final
  | false =>
      have listed := (follows.visited position inside final).mp visited
      exact Graph.visit_of_visited listed

/-- A computed node that was passed over is of no account. -/
theorem Follows.mark (follows : Follows graph traversal walk)
    (final : graph.isComputed position = true)
    : Follows graph (traversal.mark position) walk where
  visited := by
    intro other inside pending
    rw [isVisited_mark, follows.visited other inside pending]
    have different : other ≠ position := by
      intro same
      rw [same, final] at pending
      cases pending
    simp [different]
  tasks := follows.tasks

theorem Follows.emit (follows : Follows graph traversal walk) {task : Task}
    (target : task.target.node = position)
    : Follows graph { traversal.mark position with tasks := task :: traversal.tasks }
        (walk.emit task) where
  visited := by
    intro other inside pending
    have known := follows.visited other inside pending
    change (traversal.mark position).isVisited other = true ↔ _
    rw [isVisited_mark, known, Walk.emit, target, List.mem_cons]
  tasks := by simp [Walk.emit, follows.tasks]

theorem Catches.trans {middle : Traversal} {between : Walk} {more : Nat}
    (first : Catches graph traversal count middle between)
    (second : Catches graph middle more last walk)
    : Catches graph traversal (count + more) last walk where
  pops := first.pops.trans second.pops
  kept := fun position visited => second.kept position (first.kept position visited)
  follows := second.follows

/-- One pop. -/
theorem Catches.one {visit : Visit} {rest : List Visit} {next : Traversal}
    (top : traversal.stack = visit :: rest)
    (advanced : advance graph visit { traversal with stack := rest } = .ok next)
    (advances : Advances graph visit { traversal with stack := rest } next)
    (follows : Follows graph next walk)
    : Catches graph traversal 1 next walk where
  pops := .pop top advanced (.none next)
  kept := fun _ visited => advances.visited_mono visited
  follows := follows

/-- Visiting a node with a stack does what visiting it by recursion does, and takes at most one pop
more than the tasks that are listed have to pay for.
-/
def Simulates (graph : Graph) (position : Nat) : Prop :=
  ∀ (traversal : Traversal) (walk : Walk) (rest : List Visit),
    traversal.stack = ⟨position, false⟩ :: rest → Follows graph traversal walk →
      ∃ count last,
        Catches graph traversal count last (graph.visit position walk)
        ∧ last.stack = rest
        ∧ count + walk.effort ≤ 1 + (graph.visit position walk).effort

/-- Sources that were chosen when a node was entered are visited one after the other. Those that
were left out were visited already, and those that have been visited since are passed over. By
induction on the sources.
-/
theorem simulates_sources {sources : List Source} {chosen : Source → Bool} {rest : List Visit}
    (inside : ∀ source ∈ sources, source.node < graph.size)
    (each : ∀ source ∈ sources, Simulates graph source.node)
    (follows : Follows graph traversal walk)
    (left : ∀ source ∈ sources, chosen source = false → traversal.isVisited source.node = true)
    (stack : traversal.stack = (sources.filter chosen).map (⟨·.node, false⟩) ++ rest)
    : ∃ count last,
        Catches graph traversal count last (graph.visitAll sources walk)
        ∧ last.stack = rest
        ∧ count + walk.effort ≤ sources.length + (graph.visitAll sources walk).effort := by
  induction sources generalizing traversal walk with
  | nil => exact ⟨0, traversal, ⟨.none _, fun _ => id, follows⟩, stack, Nat.le_refl _⟩
  | cons source others ih =>
      rw [List.forall_mem_cons] at inside each left
      rw [Graph.visitAll_cons]
      cases picked : chosen source with
      | false =>
          rw [List.filter_cons_of_neg (by simp [picked])] at stack
          obtain ⟨count, last, catches, ended, within⟩ :=
            ih inside.2 each.2 follows left.2 stack
          rw [follows.visit_eq inside.1 (left.1 picked)]
          refine ⟨count, last, catches, ended, ?_⟩
          rw [List.length_cons]
          omega
      | true =>
          rw [List.filter_cons_of_pos picked, List.map_cons, List.cons_append] at stack
          obtain ⟨first, middle, visits, between, paid⟩ := each.1 traversal walk _ stack follows
          have still
              : ∀ other ∈ others, chosen other = false → middle.isVisited other.node = true :=
            fun other member passed => visits.kept _ (left.2 other member passed)
          obtain ⟨count, last, catches, ended, within⟩ :=
            ih inside.2 each.2 visits.follows still between
          refine ⟨first + count, last, visits.trans catches, ended, ?_⟩
          rw [List.length_cons]
          omega

/-- An entered node that comes up again with its sources behind it is listed. -/
theorem finish_catches (orderly : graph.Orderly) {node : Node} {operation : Operation}
    (waits : graph.Waits position node operation) {rest : List Visit}
    (stack : traversal.stack = ⟨position, true⟩ :: rest) (follows : Follows graph traversal walk)
    (fresh : position ∉ walk.visited)
    : ∃ last,
        Catches graph traversal 1 last (walk.emit (graph.task position node operation))
        ∧ last.stack = rest := by
  have unvisited : ¬traversal.isVisited position = true :=
    fun visited => fresh ((follows.visited _ waits.inside waits.isComputed_eq).mp visited)
  obtain ⟨next, advanced, advances⟩ :=
    advance_ok orderly (show Visit.node ⟨position, true⟩ < graph.size from waits.inside)
      { traversal with stack := rest }
  have steps := advances
  cases advances with
  | pass visited => exact absurd visited unvisited
  | computed final =>
      rw [waits.isComputed_eq] at final
      cases final
  | finish _ _ again =>
      obtain ⟨rfl, rfl⟩ := waits.unique again
      have ahead : Follows graph { traversal with stack := rest } walk :=
        ⟨follows.visited, follows.tasks⟩
      exact ⟨_, .one stack advanced steps (ahead.emit rfl), rfl⟩
  | enter _ entered => cases entered

/-- The stack follows the recursion at every node of an orderly graph, by induction on the
position.
-/
theorem simulates (orderly : graph.Orderly) (inside : position < graph.size)
    : Simulates graph position := by
  induction position using Nat.strong_induction_on with
  | _ position ih =>
      intro traversal walk rest stack follows
      have ahead : Follows graph { traversal with stack := rest } walk :=
        ⟨follows.visited, follows.tasks⟩
      obtain ⟨next, advanced, advances⟩ :=
        advance_ok orderly (show Visit.node ⟨position, false⟩ < graph.size from inside)
          { traversal with stack := rest }
      have steps := advances
      cases advances with
      | pass visited =>
          rw [follows.visit_eq inside visited]
          exact ⟨1, _, .one stack advanced steps ahead, rfl, Nat.le_refl _⟩
      | computed final =>
          rw [Graph.visit_of_computed final]
          exact ⟨1, _, .one stack advanced steps (ahead.mark final), rfl, Nat.le_refl _⟩
      | finish _ entered => cases entered
      | @enter node operation unvisited _ waits =>
          have fresh : position ∉ walk.visited := fun listed =>
            unvisited ((follows.visited position inside waits.isComputed_eq).mpr listed)
          have before : ∀ source ∈ operation.sources, source.node < position :=
            fun _ => orderly.source_lt waits
          have passed
              : ∀ source ∈ operation.sources,
                  (!traversal.isVisited source.node) = false →
                    traversal.isVisited source.node = true := by
            simp
          -- The node is entered, its sources are visited, and it is found again and listed.
          have enters := Catches.one stack advanced steps ⟨follows.visited, follows.tasks⟩
          obtain ⟨count, middle, sources, between, within⟩ :=
            simulates_sources (fun source member => (before source member).trans inside)
              (fun source member =>
                ih source.node (before source member) ((before source member).trans inside))
              enters.follows passed rfl
          obtain ⟨last, finishes, ended⟩ :=
            finish_catches orderly waits between sources.follows
              (orderly.notMem_visitAll waits fresh)
          rw [orderly.visit_of_waits waits fresh, Walk.effort_emit]
          refine ⟨1 + count + 1, last, (enters.trans sources).trans finishes, ended, ?_⟩
          have recorded : (graph.task position node operation).operation = operation := rfl
          rw [recorded]
          omega

end Traversal

-----------------------------------------------------------------------------------------
-- Schedules
-----------------------------------------------------------------------------------------

namespace Graph.Orderly

variable {graph : Graph} {root : Nat}

/-- The traversal with a stack comes to its end with the tasks of the recursive one. -/
theorem exists_pops (orderly : graph.Orderly) (inside : root < graph.size)
    : ∃ count done,
        Traversal.Pops graph count (.start graph root) done
        ∧ done.stack = []
        ∧ done.tasks.reverse = graph.postorder root
        ∧ count
          ≤ 1 + (graph.postorder root).length + (graph.postorder root).sourceCount := by
  obtain ⟨count, done, catches, empty, within⟩ :=
    Traversal.simulates orderly inside (.start graph root) .start [] rfl (.start root)
  refine ⟨count, done, catches.pops, empty, ?_, ?_⟩
  · rw [catches.follows.tasks, List.reverse_reverse]
    rfl
  · have none : Walk.start.effort = 0 := rfl
    rw [none, Walk.effort, ← postorder] at within
    omega

/-- A schedule lists the tasks of the recursive traversal: the fuel lasts until the stack is empty.
-/
theorem schedule_eq (orderly : graph.Orderly) (inside : root < graph.size)
    : graph.schedule root = .ok (graph.postorder root) := by
  obtain ⟨count, last, pops, empty, tasks, _⟩ := orderly.exists_pops inside
  obtain ⟨done, ran, ended, _⟩ :=
    Traversal.run_ok orderly inside _ (Traversal.invariant_start inside)
      (Traversal.potential_start_le graph root)
  obtain rfl := pops.eq_of_run empty ran ended
  rw [schedule, ← Traversal.start, ran, ← tasks]
  rfl

/-- The traversal with a stack is the recursive one. On every graph whose nodes read only nodes
before them, whichever of its nodes are computed, it lists the same tasks in the same order, and
its stack is empty after at most one pop more than there are listed nodes and recorded sources of
these.
-/
theorem schedule_postorder (orderly : graph.Orderly) (inside : root < graph.size)
    : graph.schedule root = .ok (graph.postorder root)
      ∧ ∃ count done,
          Traversal.Pops graph count (.start graph root) done
          ∧ done.stack = []
          ∧ done.tasks.reverse = graph.postorder root
          ∧ count
            ≤ 1 + (graph.postorder root).length + (graph.postorder root).sourceCount :=
  ⟨orderly.schedule_eq inside, orderly.exists_pops inside⟩

end Graph.Orderly

namespace Desk

/-- Two numbers from outside. -/
def sampleGiven : Buffer := ⟨0, 0, .float32, .dense [2]⟩

/-- The numbers with the other sign. -/
def sampleFlipped : Buffer := { sampleGiven with node := 1 }

/-- The sum of the flipped numbers with themselves. -/
def sampleDoubled : Buffer := { sampleGiven with node := 2 }

/-- The calls that lead to the product of the sums with the flipped numbers. -/
def sampleSharedCalls : List BuildCall :=
  [.ofArray 0 .float32 #[0x3F800000, 0x40000000] [2], .elementwise sampleGiven (.unary .neg) [],
    .elementwise sampleFlipped (.binary .add) [sampleFlipped],
    .elementwise sampleDoubled (.binary .mul) [sampleFlipped]]

/-- A product whose factors share the flipped numbers. -/
def sampleShared : Desk := sampleSharedCalls.foldl call start

theorem reachable_sampleShared : Reachable sampleShared := by
  have first : Reachable (start.call sampleSharedCalls[0]) :=
    .step .start (.call _ _ (by decide) (by decide))
  have second := Reachable.step first (.call _ sampleSharedCalls[1] (by decide) (by decide))
  have third := Reachable.step second (.call _ sampleSharedCalls[2] (by decide) (by decide))
  exact .step third (.call _ sampleSharedCalls[3] (by decide) (by decide))

/-- The flipped numbers are met three times and listed once, the numbers from outside are passed
over, and at most nine visits are taken from the stack.
-/
theorem schedule_postorder_sample
    : (sampleShared.workspace.graph 0).Orderly
      ∧ 3 < (sampleShared.workspace.graph 0).size
      ∧ ((sampleShared.workspace.graph 0).postorder 3).map (·.target.node) = [1, 2, 3]
      ∧ ∃ count done,
          Traversal.Pops (sampleShared.workspace.graph 0) count
            (.start (sampleShared.workspace.graph 0) 3) done
          ∧ done.stack = []
          ∧ done.tasks.map (·.target.node) = [3, 2, 1]
          ∧ count ≤ 9 := by
  let graph := sampleShared.workspace.graph 0
  have orderly : graph.Orderly := (reachable_sampleShared.wellFormed.workspace 0).2.orderly
  have inside : 3 < graph.size := by decide
  obtain ⟨scheduled, count, done, pops, empty, tasks, few⟩ := orderly.schedule_postorder inside
  have listed : (graph.schedule 3).map (List.map (·.target.node)) = .ok [1, 2, 3] := by decide
  have paid : (graph.schedule 3).map Schedule.sourceCount = .ok 5 := by decide
  rw [scheduled] at listed paid
  have targets := Except.ok.inj listed
  have length := congrArg List.length targets
  have sources := Except.ok.inj paid
  rw [List.length_map] at length
  refine ⟨orderly, inside, targets, count, done, pops, empty, ?_, ?_⟩
  · rw [← tasks, List.map_reverse] at targets
    exact List.reverse_eq_iff.mp targets
  · rw [length, sources] at few
    exact few

end Desk

end LazyTensor
