import LazyTensor.Proofs.Graph.Growth
import LazyTensor.Proofs.Graph.Memory
import LazyTensor.Proofs.Kernel.Meaning

/-! The arrays that the nodes of a graph stand for, by recursion on the nodes that they read. They
do not change when a graph grows or memory is filled, so it can be said of any state of a graph
that what is computed is right.
-/

namespace LazyTensor

namespace Graph

/-- The index under a node's own layout of the element that a source shows at an index. -/
def sourceIndex (graph : Graph) (source : Source) (index : Index) : Index :=
  match graph.nodes[source.node]? with
  | some node => node.layout.indexOf (source.layout.place index)
  | none => []

/-- The array of a node: data from outside in row-major order, or the result of its operation on
the arrays of earlier nodes as the recorded views show them.
-/
def reference (arith : Arithmetic) (given : Nat → Array Pattern) (graph : Graph) (position : Nat)
    (index : Index)
    : Pattern :=
  match graph.nodes[position]? with
  | none => 0
  | some node =>
      match node.producer with
      | none => (given position).getD (node.layout.shape.position index) 0
      | some operation =>
          operation.result arith node.dtype node.layout.shape
            (operation.sources.map fun source =>
              ⟨source.layout.shape, fun index =>
                if _ : source.node < position then
                  reference arith given graph source.node (graph.sourceIndex source index)
                else 0⟩)
            index
termination_by position

/-- The array that a source shows. -/
def shown (arith : Arithmetic) (given : Nat → Array Pattern) (graph : Graph) (source : Source)
    : LogicalArray where
  shape := source.layout.shape
  value index := graph.reference arith given source.node (graph.sourceIndex source index)

variable {arith : Arithmetic} {given given' : Nat → Array Pattern} {graph old new : Graph}

/-- Data from outside stand in row-major order. -/
theorem reference_of_given {position : Nat} {node : Node}
    (found : graph.nodes[position]? = some node) (external : node.producer = none) (index : Index)
    : graph.reference arith given position index
      = (given position).getD (node.layout.shape.position index) 0 := by
  rw [reference, found]
  simp only [external]

/-- The array of an operation is its result on what the sources show. -/
theorem reference_of_made (wf : graph.WellFormed) {position : Nat} {node : Node}
    {operation : Operation} (found : graph.nodes[position]? = some node)
    (made : node.producer = some operation)
    : graph.reference arith given position
      = operation.result arith node.dtype node.layout.shape
          (operation.sources.map (graph.shown arith given)) := by
  funext index
  have sources
      : (operation.sources.map fun source : Source =>
            (⟨source.layout.shape, fun index =>
              if source.node < position then
                graph.reference arith given source.node (graph.sourceIndex source index)
              else 0⟩ : LogicalArray))
          = operation.sources.map (graph.shown arith given) := by
    refine List.map_congr_left ?_
    intro source member
    have earlier := (wf position node found).earlier operation made source member
    simp only [earlier, if_true]
    rfl
  rw [reference, found]
  simp only [made, dite_eq_ite]
  rw [sources]

theorem Extends.sourceIndex_eq (later : old.Extends new) {source : Source} {dtype : DType}
    (reads : source.Reads old dtype)
    : new.sourceIndex source = old.sourceIndex source := by
  obtain ⟨_, node, found, _⟩ := reads
  obtain ⟨next, foundNext, stays⟩ := later.nodes _ node found
  funext index
  simp only [sourceIndex, found, foundNext, stays.layout]

/-- Arrays stay what they are in later states of a graph, by induction on the position: a node
reads earlier ones only.
-/
theorem Extends.reference_eq (later : old.Extends new) (wf : old.WellFormed)
    (newWf : new.WellFormed) {position : Nat} (inside : position < old.size)
    (same : ∀ earlier < old.size, given' earlier = given earlier)
    : new.reference arith given' position = old.reference arith given position := by
  induction position using Nat.strong_induction_on with
  | _ position ih =>
      have found := Array.getElem?_eq_getElem inside
      obtain ⟨next, foundNext, stays⟩ := later.nodes position _ found
      cases made : old.nodes[position].producer with
      | none =>
          funext index
          rw [reference_of_given found made, reference_of_given foundNext
            (stays.producer.trans made), same position inside, stays.layout]
      | some operation =>
          rw [reference_of_made wf found made, reference_of_made newWf foundNext
            (stays.producer.trans made), stays.dtype, stays.layout]
          congr 1
          refine List.map_congr_left ?_
          intro source member
          have earlier := (wf position _ found).earlier operation made source member
          have reads := (wf position _ found).reads operation made source member
          rw [shown, shown, ih source.node earlier (earlier.trans inside),
            later.sourceIndex_eq reads]

theorem Extends.shown_eq (later : old.Extends new) (wf : old.WellFormed)
    (newWf : new.WellFormed) {source : Source} {dtype : DType} (reads : source.Reads old dtype)
    (same : ∀ earlier < old.size, given' earlier = given earlier)
    : new.shown arith given' source = old.shown arith given source := by
  have own := later.sourceIndex_eq reads
  obtain ⟨_, node, found, _⟩ := reads
  rw [shown, shown, own, later.reference_eq wf newWf (Array.getElem?_eq_some_iff.mp found).1 same]

-----------------------------------------------------------------------------------------
-- Nodes that an operation makes
-----------------------------------------------------------------------------------------

/-- A node that an operation makes, whether or not it is computed. -/
def MadeBy (graph : Graph) (position : Nat) (operation : Operation) (dtype : DType)
    (layout : Layout)
    : Prop :=
  ∃ node,
    graph.nodes[position]? = some node ∧ (Node.deferred operation dtype layout).Continues node

section

variable {position : Nat} {operation : Operation} {dtype : DType} {layout : Layout}

theorem madeBy_push (graph : Graph) (operation : Operation) (dtype : DType) (layout : Layout)
    : (graph.push (.deferred operation dtype layout)).MadeBy graph.size operation dtype layout :=
  ⟨_, by simp [push, size], .refl _⟩

theorem Extends.madeBy (later : old.Extends new) (made : old.MadeBy position operation dtype layout)
    : new.MadeBy position operation dtype layout := by
  obtain ⟨node, found, stays⟩ := made
  obtain ⟨next, foundNext, staysOn⟩ := later.nodes position node found
  exact ⟨next, foundNext, stays.trans staysOn⟩

theorem MadeBy.reference_eq (made : graph.MadeBy position operation dtype layout)
    (wf : graph.WellFormed)
    : graph.reference arith given position
      = operation.result arith dtype layout.shape
          (operation.sources.map (graph.shown arith given)) := by
  obtain ⟨node, found, stays⟩ := made
  rw [reference_of_made wf found stays.producer, stays.dtype, stays.layout]
  rfl

/-- A node that was recorded is made by its operation. -/
theorem madeBy_of_records {result : Buffer}
    (recorded : Build.Records old operation dtype layout result new)
    : new.MadeBy old.size operation dtype layout
      ∧ old.Extends new
      ∧ new.size = old.size + 1
      ∧ result = ⟨old.id, old.size, dtype, layout⟩ := by
  obtain ⟨_, rfl, rfl⟩ := recorded
  exact ⟨madeBy_push old _ _ _, .push old _, by simp [push, size], rfl⟩

end

-----------------------------------------------------------------------------------------
-- Computed nodes
-----------------------------------------------------------------------------------------

/-- The storage of every computed node shows the array of the node. -/
def Computes (arith : Arithmetic) (given : Nat → Array Pattern) (graph : Graph) : Prop :=
  ∀ (position : Nat) (node : Node) (storage : Storage),
    graph.nodes[position]? = some node → node.computed = true →
    node.storage = some storage →
    node.layout.Shows storage.cells
      ⟨node.layout.shape, graph.reference arith given position⟩

theorem Computes.empty (id : Nat) : (Graph.empty id).Computes arith given := by
  intro position node storage found
  simp [Graph.empty] at found

/-- What is computed stays right in a later state if each computed node there either was the same
before or shows its array.
-/
theorem Computes.later (computes : old.Computes arith given) (wf : old.WellFormed)
    (newWf : new.WellFormed) (extends_ : old.Extends new)
    (same : ∀ earlier < old.size, given' earlier = given earlier)
    (fresh
      : ∀ (position : Nat) (node : Node) (storage : Storage),
          new.nodes[position]? = some node → node.computed = true →
          node.storage = some storage →
          old.nodes[position]? = some node
          ∨ node.layout.Shows storage.cells
              ⟨node.layout.shape, new.reference arith given' position⟩)
    : new.Computes arith given' := by
  intro position node storage found computed had
  rcases fresh position node storage found computed had with before | shows
  · have inside := (Array.getElem?_eq_some_iff.mp before).1
    rw [extends_.reference_eq wf newWf inside same]
    exact computes position node storage before computed had
  · exact shows

/-- A source whose node is computed shows its array: the element at a place of storage is the one
of the node's own index that stands there.
-/
theorem Computes.source (computes : graph.Computes arith given) (wf : graph.WellFormed)
    {source : Source} {dtype : DType} (reads : source.Reads graph dtype)
    (computed : graph.isComputed source.node = true) {storage : Storage}
    (had : graph.storage? source.node = some storage)
    : source.layout.Shows storage.cells (graph.shown arith given source) := by
  obtain ⟨sourceWf, node, found, _, size⟩ := reads
  rw [isComputed, found] at computed
  rw [storage?, found, Option.bind_some] at had
  have shows := computes source.node node storage found computed had
  refine ⟨rfl, ?_⟩
  intro index held
  have below : source.layout.place index < node.layout.current.physicalSize :=
    (sourceWf.current.place_lt held).trans_eq size
  -- The place that the source reads belongs to some index of the node's own layout.
  obtain ⟨inside, stands⟩ := (wf _ node found).layout.current.place_indexOf below
  have value := shows.value _ inside
  change storage.cells[node.layout.current.place _]? = _ at value
  rw [stands] at value
  have own : graph.sourceIndex source index
      = node.layout.current.indexOf (source.layout.place index) := by
    rw [sourceIndex, found]
    rfl
  rw [value, ← own]
  rfl

-----------------------------------------------------------------------------------------
-- Steps of a graph
-----------------------------------------------------------------------------------------

/-- Nodes that wait may be added. -/
theorem Computes.defers (computes : old.Computes arith given) (wf : old.WellFormed)
    (newWf : new.WellFormed) (defers : old.Defers new)
    : new.Computes arith given := by
  refine computes.later wf newWf defers.extends_ (fun _ _ => rfl) ?_
  intro position node storage found computed had
  by_cases inside : position < old.size
  · exact Or.inl ((defers.kept position inside).symm.trans found)
  · rw [defers.fresh position node (Nat.le_of_not_lt inside) found] at computed
    cases computed

/-- Data from outside may be added. -/
theorem Computes.push_given (computes : graph.Computes arith given) (wf : graph.WellFormed)
    {dtype : DType} {data : Array Pattern} {shape : Shape} (fits : shape.Fits)
    (length : data.size = shape.size)
    : (graph.push (.given dtype data shape)).Computes arith
        (Function.update given graph.size data) := by
  refine computes.later wf (wf.push_given fits length) (.push graph _) ?_ ?_
  · intro earlier below
    exact Function.update_of_ne below.ne _ _
  · intro position node storage found computed had
    have pushed := found
    rw [push, Array.getElem?_push] at found
    split at found
    · next last =>
        subst last
        obtain rfl := Option.some.inj found
        obtain rfl := Option.some.inj had
        refine Or.inr (Layout.shows_dense rfl ?_)
        intro index held
        have below : shape.position index < data.size := by
          rw [length, fits.size_eq]
          exact held.position_lt
        rw [reference_of_given pushed rfl, size, Function.update_self]
        simp [Node.given, below]
    · exact Or.inl found

/-- Memory may be taken: what is computed has some. -/
theorem Computes.allocates (computes : old.Computes arith given) (wf : old.WellFormed)
    {position : Nat} {storage : Storage} (allocates : old.Allocates position storage new)
    : new.Computes arith given := by
  refine computes.later wf (allocates.wellFormed wf) allocates.extends_ (fun _ _ => rfl) ?_
  intro other node own found computed had
  cases allocates with
  | kept => exact Or.inl found
  | taken target foundTarget none zeroed =>
      rw [updateNode, Array.getElem?_modify] at found
      split at found
      · next same =>
          subst same
          obtain ⟨before, foundBefore, rfl⟩ := Option.map_eq_some_iff.mp found
          obtain rfl := Option.some.inj (foundTarget.symm.trans foundBefore)
          have has := (wf _ target foundTarget).computed computed
          rw [none] at has
          cases has
      · exact Or.inl found

/-- A node that is not computed may have any storage of its type and size. -/
theorem Computes.stored (computes : graph.Computes arith given) (wf : graph.WellFormed)
    {position : Nat} {storage : Storage}
    (fit
      : ∀ node, graph.nodes[position]? = some node →
          storage.dtype = node.dtype ∧ storage.size = node.layout.physicalSize)
    (pending : graph.isComputed position = false)
    : (graph.updateNode position (·.stored storage)).Computes arith given := by
  refine computes.later wf (wf.stored fit) (graph.extends_stored position storage)
    (fun _ _ => rfl) ?_
  intro other node own found computed had
  rw [updateNode, Array.getElem?_modify] at found
  split at found
  · next same =>
      subst same
      obtain ⟨before, foundBefore, rfl⟩ := Option.map_eq_some_iff.mp found
      rw [isComputed, foundBefore] at pending
      exact absurd (computed.symm.trans pending) (by simp)
  · exact Or.inl found

/-- A node may be marked as computed if its storage shows its array. -/
theorem Computes.finished (computes : graph.Computes arith given) (wf : graph.WellFormed)
    {position : Nat} (allocated : graph.isAllocated position = true)
    (shows
      : ∀ node storage, graph.nodes[position]? = some node → node.storage = some storage →
          node.layout.Shows storage.cells
            ⟨node.layout.shape, graph.reference arith given position⟩)
    : (graph.updateNode position Node.finished).Computes arith given := by
  have later := graph.extends_finished position
  have newWf := wf.finished allocated
  refine computes.later wf newWf later (fun _ _ => rfl) ?_
  intro other node own found computed had
  rw [updateNode, Array.getElem?_modify] at found
  split at found
  · next same =>
      subst same
      obtain ⟨before, foundBefore, rfl⟩ := Option.map_eq_some_iff.mp found
      have inside := (Array.getElem?_eq_some_iff.mp foundBefore).1
      rw [later.reference_eq wf newWf inside fun _ _ => rfl]
      exact Or.inr (shows before own foundBefore had)
  · exact Or.inl found

end Graph

/-- The data from outside after a call: those that the call brings belong to the node that it
answers with.
-/
def BuildCall.given (call : BuildCall) (position : Nat) (given : Nat → Array Pattern)
    : Nat → Array Pattern :=
  match call with
  | ofArray _ _ data _ => Function.update given position data
  | _ => given

/-- Whatever a call makes, what is computed stays right. -/
theorem BuildCall.Makes.computes {arith : Arithmetic} {given : Nat → Array Pattern}
    {call : BuildCall} {graph final : Graph} {result : Buffer}
    (makes : call.Makes graph result final) (wf : graph.WellFormed)
    (computes : graph.Computes arith given)
    : final.Computes arith (call.given result.node given) := by
  have kept := makes.keeps wf
  cases call with
  | ofArray _ dtype data shape =>
      obtain ⟨fits, length, rfl, rfl⟩ := makes
      exact computes.push_given wf fits length
  | _ => exact computes.defers wf kept.1 makes.defers

end LazyTensor
