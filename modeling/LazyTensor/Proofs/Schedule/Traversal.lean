import LazyTensor.Proofs.Graph.WellFormed
import LazyTensor.Schedule
import Mathlib.Algebra.Order.BigOperators.Group.Finset

/-! Traversals of orderly graphs, as those are that keep to the rules. A traversal never fails, and
its fuel lasts: a node is entered once, since everything above an entered node on the stack came
before it in the graph. What is listed is needed, waits, and comes after its sources.
-/

namespace LazyTensor

namespace Graph

/-- The node at a position is made by an operation and is not computed. -/
structure Waits (graph : Graph) (position : Nat) (node : Node) (operation : Operation)
    : Prop where
  found : graph.nodes[position]? = some node
  computed : node.computed = false
  made : node.producer = some operation

/-- What a node leads to along recorded sources through nodes that wait. -/
inductive Needs (graph : Graph) (root : Nat) : Nat → Prop
  | root : Needs graph root root
  | source {position : Nat} {node : Node} {operation : Operation} {source : Source}
    (needed : Needs graph root position) (waits : graph.Waits position node operation)
    (member : source ∈ operation.sources)
    : Needs graph root source.node

/-- The task of a node: its operation, the node under its own layout and the sources as they
were recorded.
-/
def task (graph : Graph) (position : Nat) (node : Node) (operation : Operation) : Task where
  operation
  target := ⟨graph.id, position, node.dtype, node.layout⟩
  sources := operation.sources.map graph.sourceView

/-- The task of a node is the same in all later states of a graph. -/
theorem Extends.task_eq {old new : Graph} (later : old.Extends new) {position : Nat}
    {node next : Node} {operation : Operation} (wf : node.WellFormed old position)
    (made : node.producer = some operation) (stays : node.Continues next)
    : new.task position next operation = old.task position node operation := by
  have sources : operation.sources.map new.sourceView = operation.sources.map old.sourceView :=
    List.map_congr_left fun source member =>
      later.sourceView_eq (wf.reads operation made source member)
  rw [task, task, sources, later.id, stays.dtype, stays.layout]

/-- Every source of a task is computed or the target of a task behind it. -/
def SourcesBehind (graph : Graph) : List Task → Prop
  | [] => True
  | task :: rest =>
      (∀ source ∈ task.sources,
        graph.isComputed source.node = true ∨ ∃ other ∈ rest, other.target.node = source.node)
      ∧ SourcesBehind graph rest

theorem Waits.isComputed_eq {graph : Graph} {position : Nat} {node : Node}
    {operation : Operation} (waits : graph.Waits position node operation)
    : graph.isComputed position = false := by
  rw [isComputed, waits.found]
  exact waits.computed

theorem Waits.unique {graph : Graph} {position : Nat} {node other : Node}
    {operation another : Operation} (left : graph.Waits position node operation)
    (right : graph.Waits position other another)
    : node = other ∧ operation = another := by
  obtain rfl := Option.some.inj (left.found.symm.trans right.found)
  exact ⟨rfl, Option.some.inj (left.made.symm.trans right.made)⟩

/-- Nodes read nodes that came before them, and a node that is not computed can be. -/
structure Orderly (graph : Graph) : Prop where
  earlier
    : ∀ (position : Nat) (node : Node) (operation : Operation),
        graph.nodes[position]? = some node → node.producer = some operation →
          ∀ source ∈ operation.sources, source.node < position
  made
    : ∀ (position : Nat) (node : Node),
        graph.nodes[position]? = some node → node.computed = false →
          ∃ operation, node.producer = some operation

/-- Data from outside are final, so every other node has an operation. -/
theorem WellFormed.orderly {graph : Graph} (wf : graph.WellFormed) : graph.Orderly where
  earlier := fun position node operation found made =>
    (wf position node found).earlier operation made
  made := by
    intro position node found computed
    cases made : node.producer with
    | none =>
        have final := ((wf position node found).external made).1
        rw [computed] at final
        cases final
    | some operation => exact ⟨operation, rfl⟩

namespace Orderly

variable {graph : Graph} {position : Nat} {node : Node} {operation : Operation}

theorem exists_waits (orderly : graph.Orderly) (found : graph.nodes[position]? = some node)
    (computed : node.computed = false)
    : ∃ operation, graph.Waits position node operation := by
  obtain ⟨operation, made⟩ := orderly.made position node found computed
  exact ⟨operation, found, computed, made⟩

theorem source_lt (orderly : graph.Orderly) (waits : graph.Waits position node operation)
    {source : Source} (member : source ∈ operation.sources)
    : source.node < position :=
  orderly.earlier position node operation waits.found waits.made source member

/-- What is needed is in the graph and does not come after the root, by induction on the way
to it.
-/
theorem needs_le (orderly : graph.Orderly) {root : Nat} (inside : root < graph.size)
    (needed : graph.Needs root position)
    : position ≤ root ∧ position < graph.size := by
  induction needed with
  | root => exact ⟨Nat.le_refl _, inside⟩
  | source _ waits member ih =>
      have before := orderly.source_lt waits member
      exact ⟨before.le.trans ih.1, before.trans ih.2⟩

end Orderly

end Graph

-----------------------------------------------------------------------------------------
-- One step of a traversal
-----------------------------------------------------------------------------------------

namespace Traversal

/-- Marking a node makes it visited and no other. -/
@[simp] theorem isVisited_mark (traversal : Traversal) (node other : Nat)
    : (traversal.mark node).isVisited other = true
      ↔ other = node ∨ traversal.isVisited other = true := by
  simp only [isVisited, mark, Array.getD_eq_getD_getElem?, Array.getElem?_setIfInBounds]
  by_cases same : node = other
  · subst same
    by_cases inside : node < traversal.visited.size
    · simp [inside]
    · simp [inside]
  · simp [same, Ne.symm same]

/-- What a step does with the visit on top of the stack. -/
inductive Advances (graph : Graph) (visit : Visit) (traversal : Traversal) : Traversal → Prop
  /-- The node was visited before. -/
  | pass (visited : traversal.isVisited visit.node = true)
    : Advances graph visit traversal traversal
  /-- The node is computed and passed over. -/
  | computed (final : graph.isComputed visit.node = true)
    : Advances graph visit traversal (traversal.mark visit.node)
  /-- The sources of the node are done, and it is listed. -/
  | finish {node : Node} {operation : Operation}
    (fresh : ¬traversal.isVisited visit.node = true) (entered : visit.entered = true)
    (waits : graph.Waits visit.node node operation)
    : Advances graph visit traversal
        { traversal.mark visit.node with
          tasks := graph.task visit.node node operation :: traversal.tasks }
  /-- The node waits for its sources. -/
  | enter {node : Node} {operation : Operation}
    (fresh : ¬traversal.isVisited visit.node = true) (entered : visit.entered = false)
    (waits : graph.Waits visit.node node operation)
    : Advances graph visit traversal
        { traversal with
          stack :=
            (operation.sources.filter (!traversal.isVisited ·.node)).map (⟨·.node, false⟩)
              ++ ⟨visit.node, true⟩ :: traversal.stack }

/-- A step does not fail on a node of an orderly graph. -/
theorem advance_ok {graph : Graph} (orderly : graph.Orderly) {visit : Visit}
    (inside : visit.node < graph.size) (traversal : Traversal)
    : ∃ next,
        advance graph visit traversal = .ok next ∧ Advances graph visit traversal next := by
  have found : graph.nodes[visit.node]? = some graph.nodes[visit.node] :=
    Array.getElem?_eq_getElem inside
  unfold advance
  split
  · next visited => exact ⟨_, rfl, .pass visited⟩
  · next fresh =>
      rw [found]
      dsimp only
      split
      · next final => exact ⟨_, rfl, .computed (by rw [Graph.isComputed, found]; exact final)⟩
      · next open_ =>
          obtain ⟨operation, waits⟩ :=
            orderly.exists_waits found (Bool.eq_false_iff.mpr open_)
          rw [waits.made]
          dsimp only
          split
          · next entered => exact ⟨_, rfl, .finish fresh entered waits⟩
          · next entered => exact ⟨_, rfl, .enter fresh (Bool.eq_false_iff.mpr entered) waits⟩

/-- What was visited stays visited. -/
theorem Advances.visited_mono {graph : Graph} {visit : Visit} {traversal next : Traversal}
    (advances : Advances graph visit traversal next) {position : Nat}
    (visited : traversal.isVisited position = true)
    : next.isVisited position = true := by
  cases advances with
  | pass => exact visited
  | computed => exact (isVisited_mark _ _ _).mpr (Or.inr visited)
  | finish => exact (isVisited_mark _ _ _).mpr (Or.inr visited)
  | enter => exact visited

-----------------------------------------------------------------------------------------
-- Entered nodes on the stack
-----------------------------------------------------------------------------------------

/-- Every source of a node is visited or stands above it on the stack, and all that stands above
comes before it in the graph.
-/
def Guarded (graph : Graph) (visited : Nat → Bool) (above : List Nat) (position : Nat) : Prop :=
  (∀ node operation,
    graph.Waits position node operation →
      ∀ source ∈ operation.sources, visited source.node = true ∨ source.node ∈ above)
  ∧ ∀ other ∈ above, other < position

/-- All entered nodes of a stack, top first, are guarded by what stands above them. -/
def Pending (graph : Graph) (visited : Nat → Bool) : (above : List Nat) → List Visit → Prop
  | _, [] => True
  | above, visit :: rest =>
      (visit.entered = true → Guarded graph visited above visit.node)
      ∧ Pending graph visited (visit.node :: above) rest

/-- What was visited or above still is, and nothing comes after what was above. -/
structure Carries (visited : Nat → Bool) (above : List Nat) (visited' : Nat → Bool)
    (above' : List Nat)
    : Prop where
  kept
    : ∀ position, visited position = true ∨ position ∈ above →
        visited' position = true ∨ position ∈ above'
  bounded : ∀ position ∈ above', ∃ bound ∈ above, position ≤ bound

section

variable {graph : Graph} {visited visited' : Nat → Bool} {above above' : List Nat}

/-- One more node above both does not change what is carried over. -/
theorem Carries.cons (carries : Carries visited above visited' above') (position : Nat)
    : Carries visited (position :: above) visited' (position :: above') where
  kept := by
    intro other before
    simp only [List.mem_cons] at before ⊢
    rcases before with seen | rfl | member
    · rcases carries.kept other (Or.inl seen) with seen | member
      · exact Or.inl seen
      · exact Or.inr (Or.inr member)
    · exact Or.inr (Or.inl rfl)
    · rcases carries.kept other (Or.inr member) with seen | member
      · exact Or.inl seen
      · exact Or.inr (Or.inr member)
  bounded := by
    intro other member
    rcases List.mem_cons.mp member with rfl | member
    · exact ⟨other, by simp, Nat.le_refl _⟩
    · obtain ⟨bound, inside, below⟩ := carries.bounded other member
      exact ⟨bound, List.mem_cons_of_mem _ inside, below⟩

/-- A guard stays one when what guards is carried over. -/
theorem Guarded.carry {position : Nat} (guarded : Guarded graph visited above position)
    (carries : Carries visited above visited' above')
    : Guarded graph visited' above' position := by
  constructor
  · intro node operation waits source member
    exact carries.kept _ (guarded.1 node operation waits source member)
  · intro other member
    obtain ⟨bound, inside, below⟩ := carries.bounded other member
    exact below.trans_lt (guarded.2 bound inside)

/-- The rest of a stack stays guarded, by induction on it. -/
theorem Pending.carry {stack : List Visit} (pending : Pending graph visited above stack)
    (carries : Carries visited above visited' above')
    : Pending graph visited' above' stack := by
  induction stack generalizing above above' with
  | nil => trivial
  | cons visit rest ih =>
      refine ⟨?_, ih pending.2 (carries.cons visit.node)⟩
      intro entered
      exact (pending.1 entered).carry carries

/-- Sources that were not entered only add to what is above the rest, by induction on them. -/
theorem pending_append {sources : List Source} {stack : List Visit}
    : Pending graph visited above (sources.map (⟨·.node, false⟩) ++ stack)
      ↔ Pending graph visited ((sources.map (·.node)).reverse ++ above) stack := by
  induction sources generalizing above with
  | nil => rfl
  | cons source rest ih =>
      rw [List.map_cons, List.cons_append, Pending, ih, List.map_cons, List.reverse_cons,
        List.append_assoc, List.singleton_append]
      simp

/-- An entered node comes after all that stands above it, by induction on the stack. -/
theorem Pending.lt_of_entered {stack : List Visit} (pending : Pending graph visited above stack)
    {position : Nat} (member : ⟨position, true⟩ ∈ stack)
    : ∀ other ∈ above, other < position := by
  induction stack generalizing above with
  | nil => cases member
  | cons visit rest ih =>
      rcases List.mem_cons.mp member with rfl | member
      · exact (pending.1 rfl).2
      · intro other inside
        exact ih pending.2 member other (List.mem_cons_of_mem _ inside)

end

end Traversal

end LazyTensor
