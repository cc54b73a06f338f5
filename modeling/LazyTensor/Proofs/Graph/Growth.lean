import LazyTensor.Proofs.Graph.Building

/-! Calls of builders as data, and what a call does to a graph that keeps to the rules. The graph
keeps to them, its nodes stay as they are, and what is added waits to be computed unless it is
data from outside. The answer is a buffer of the graph.
-/

namespace LazyTensor

/-- A later graph with the same nodes and possibly more behind them, none of which is computed.
-/
structure Graph.Defers (old new : Graph) : Prop where
  id : new.id = old.id
  size : old.size ≤ new.size
  kept : ∀ position : Nat, position < old.size → new.nodes[position]? = old.nodes[position]?
  fresh
    : ∀ (position : Nat) (node : Node), old.size ≤ position →
        new.nodes[position]? = some node → node.computed = false

namespace Graph.Defers

theorem refl (graph : Graph) : graph.Defers graph := by
  refine ⟨rfl, Nat.le_refl _, fun _ _ => rfl, ?_⟩
  intro position node outside found
  rw [Array.getElem?_eq_none outside] at found
  cases found

/-- What is added in two steps is added. -/
theorem trans {first second third : Graph} (left : first.Defers second)
    (right : second.Defers third)
    : first.Defers third where
  id := right.id.trans left.id
  size := left.size.trans right.size
  kept := by
    intro position below
    rw [right.kept position (below.trans_le left.size), left.kept position below]
  fresh := by
    intro position node outside found
    by_cases inside : position < second.size
    · rw [right.kept position inside] at found
      exact left.fresh position node outside found
    · exact right.fresh position node (Nat.le_of_not_lt inside) found

/-- One more operation waits. -/
theorem push (graph : Graph) (operation : Operation) (dtype : DType) (layout : Layout)
    : graph.Defers (graph.push (.deferred operation dtype layout)) where
  id := rfl
  size := by simp [Graph.push, Graph.size]
  kept := by
    intro position below
    rw [Graph.push, Array.getElem?_push_lt below, Array.getElem?_eq_getElem below]
  fresh := by
    intro position node outside found
    rw [Graph.push, Array.getElem?_push] at found
    split at found
    · obtain rfl := Option.some.inj found
      rfl
    · rw [Array.getElem?_eq_none outside] at found
      cases found

theorem extends_ {old new : Graph} (defers : old.Defers new) : old.Extends new := by
  refine ⟨defers.id, ?_⟩
  intro position node found
  have below := (Array.getElem?_eq_some_iff.mp found).1
  exact ⟨node, (defers.kept position below).trans found, .refl node⟩

end Graph.Defers

/-- A later graph that keeps to the rules, where nothing was computed meanwhile, with a buffer
of it.
-/
structure Build.Grows (graph : Graph) (result : Buffer) (final : Graph) : Prop where
  wellFormed : final.WellFormed
  defers : graph.Defers final
  result : result.In final

theorem Graph.in_push (graph : Graph) {node : Node} (wf : node.layout.WellFormed)
    : Buffer.In (graph.push node) ⟨graph.id, graph.size, node.dtype, node.layout⟩ := by
  refine ⟨rfl, wf, node, ?_, rfl, rfl⟩
  simp [Buffer.source, Graph.push, Graph.size]

/-- An operation on buffers of a graph keeps the graph to the rules. -/
theorem Build.Records.grows {graph : Graph} {operation : Operation} {dtype : DType}
    {layout : Layout} {result : Buffer} {final : Graph}
    (recorded : Build.Records graph operation dtype layout result final)
    (wf : graph.WellFormed) (layoutWf : layout.WellFormed)
    (reads : ∀ source ∈ operation.sources, source.Reads graph dtype)
    : Build.Grows graph result final := by
  obtain ⟨yields, rfl, rfl⟩ := recorded
  refine ⟨?_, .push graph operation dtype layout, graph.in_push layoutWf⟩
  refine wf.push ?_
  constructor
  · exact layoutWf
  · intro external
    cases external
  · intro _ found
    cases found
    exact yields
  · intro _ found source member
    cases found
    obtain ⟨_, node, found, _⟩ := reads source member
    exact (Array.getElem?_eq_some_iff.mp found).1
  · intro _ found
    cases found
    exact reads
  · intro _ found
    cases found
  · intro found
    cases found

/-- Data from outside keep the graph to the rules. -/
theorem Graph.WellFormed.push_given {graph : Graph} (wf : graph.WellFormed) {dtype : DType}
    {data : Array Pattern} {shape : Shape} (fits : shape.Fits) (length : data.size = shape.size)
    : (graph.push (.given dtype data shape)).WellFormed := by
  refine wf.push ?_
  constructor
  · exact Layout.dense_wellFormed fits
  · exact fun _ => ⟨rfl, rfl⟩
  · intro _ found
    cases found
  · intro _ found
    cases found
  · intro _ found
    cases found
  · intro _ found
    cases found
    exact ⟨rfl, length.trans (Layout.physicalSize_dense shape).symm⟩
  · exact fun _ => rfl

-----------------------------------------------------------------------------------------
-- Calls of builders
-----------------------------------------------------------------------------------------

/-- A call of a builder with its arguments. Maps of one and of two operands are calls of
`elementwise`.
-/
inductive BuildCall where
  | fill (graph : Nat) (op : Fill) (shape : Shape) (argument : Option Argument) (dtype : DType)
  | ofArray (graph : Nat) (dtype : DType) (data : Array Pattern) (shape : Shape)
  | elementwise (left : Buffer) (kind : OpKind) (others : List Buffer)
  | reshape (buffer : Buffer) (shape : Shape)
  | expand (buffer : Buffer) (shape : Shape)
  | permute (buffer : Buffer) (order : List Nat)
  | pad (buffer : Buffer) (padding : List (Nat × Nat))
  | reduce (buffer : Buffer) (op : Reduction) (axis : Nat)
  | matmul (left right : Buffer)
  | dot (left right : Buffer)

namespace BuildCall

/-- The graph that a call works on: the one of its receiver. -/
def graph : BuildCall → Nat
  | fill graph .. | ofArray graph .. => graph
  | elementwise buffer .. | reshape buffer _ | expand buffer _ | permute buffer _ | pad buffer _
  | reduce buffer .. | matmul buffer _ | dot buffer _ => buffer.graph

/-- The buffers that a call is given. -/
def operands : BuildCall → List Buffer
  | fill .. | ofArray .. => []
  | elementwise left _ others => left :: others
  | reshape buffer _ | expand buffer _ | permute buffer _ | pad buffer _ | reduce buffer .. =>
      [buffer]
  | matmul left right | dot left right => [left, right]

/-- The step of a call. -/
def step : BuildCall → Build Buffer
  | fill _ op shape argument dtype => Build.fill op shape argument dtype
  | ofArray _ dtype data shape => Build.ofArray dtype data shape
  | elementwise left kind others => left.elementwise kind others
  | reshape buffer shape => buffer.reshape shape
  | expand buffer shape => buffer.expand shape
  | permute buffer order => buffer.permute order
  | pad buffer padding => buffer.pad padding
  | reduce buffer op axis => buffer.reduce op axis
  | matmul left right => left.matmul right
  | dot left right => left.dot right

/-- What a call makes of a graph: more nodes that wait, or one node of the data that the call
brings.
-/
def Makes (call : BuildCall) (graph : Graph) (result : Buffer) (final : Graph) : Prop :=
  match call with
  | ofArray _ dtype data shape =>
      shape.Fits ∧ data.size = shape.size ∧ final = graph.push (.given dtype data shape)
      ∧ result = ⟨graph.id, graph.size, dtype, .dense shape⟩
  | _ => Build.Grows graph result final

end BuildCall

/-- Whatever a call makes, the graph keeps to the rules and the answer is a buffer of it. -/
theorem BuildCall.Makes.keeps {call : BuildCall} {graph final : Graph} {result : Buffer}
    (makes : call.Makes graph result final) (wf : graph.WellFormed)
    : final.WellFormed ∧ graph.Extends final ∧ result.In final := by
  cases call with
  | ofArray _ dtype data shape =>
      obtain ⟨fits, length, rfl, rfl⟩ := makes
      exact ⟨wf.push_given fits length, .push graph _,
        graph.in_push (Layout.dense_wellFormed fits)⟩
  | _ => exact ⟨makes.wellFormed, makes.defers.extends_, makes.result⟩

namespace Buffer

/-- Another view of a buffer's node is a buffer of the graph if the view needs no memory. -/
theorem In.withLayout {graph : Graph} {buffer : Buffer} (held : buffer.In graph)
    {layout : Layout} (wf : layout.WellFormed)
    (same : layout.physicalSize = buffer.layout.physicalSize)
    : (buffer.withLayout layout).In graph := by
  obtain ⟨own, _, node, found, type, size⟩ := held
  exact ⟨own, wf, node, found, type, same.trans size⟩

/-- A view that is allowed leaves the graph as it is. -/
theorem view_grows {graph : Graph} (wf : graph.WellFormed) {buffer : Buffer}
    (held : buffer.In graph) (change : Layout → Except Layout.Error Layout)
    (keeps
      : ∀ layout, change buffer.layout = .ok layout →
          layout.WellFormed ∧ layout.physicalSize = buffer.layout.physicalSize)
    : Ends (buffer.view change) graph (Build.Grows graph) (fun _ final => final = graph) := by
  refine (view_ends buffer change graph).mono ?_ (fun _ _ unchanged => unchanged)
  intro _ final outcome
  rcases outcome with ⟨rfl, layout, changed, rfl⟩
  obtain ⟨layoutWf, same⟩ := keeps layout changed
  exact ⟨wf, .refl _, held.withLayout layoutWf same⟩

/-- A contraction of two buffers of a graph keeps the graph to the rules: the broadcast views
need no memory, and the product that is appended first is a buffer of the graph that it makes.
-/
theorem matmul_grows {graph : Graph} (wf : graph.WellFormed) {left right : Buffer}
    (heldLeft : left.In graph) (heldRight : right.graph = graph.id → right.In graph)
    : Ends (left.matmul right) graph (Build.Grows graph) (fun _ final => final = graph) := by
  refine (matmul_ends left right graph).mono ?_ (fun _ _ unchanged => unchanged)
  intro result final outcome
  rcases outcome with ⟨sameGraph, sameType, target, leftLayout, rightLayout, product, middle,
    leftGrown, rightGrown, multiplied, summed⟩
  have heldRight := heldRight (sameGraph.symm.trans heldLeft.1)
  obtain ⟨leftWf, leftSize⟩ :=
    (heldLeft.2.1.insertUnits 0 (right.rank - 1)).expand leftGrown
  obtain ⟨rightWf, rightSize⟩ :=
    (heldRight.2.1.insertUnits (left.rank - 1) 0).expand rightGrown
  have readsLeft : (left.withLayout leftLayout).In graph :=
    heldLeft.withLayout leftWf (leftSize.trans (heldLeft.2.1.physicalSize_insertUnits _ _))
  have readsRight : (right.withLayout rightLayout).In graph :=
    heldRight.withLayout rightWf (rightSize.trans (heldRight.2.1.physicalSize_insertUnits _ _))
  have first := multiplied.grows wf (Layout.dense_wellFormed leftWf.current.fits) (by
    simp only [List.forall_mem_cons, List.not_mem_nil, false_imp_iff, implies_true, and_true]
    exact ⟨readsLeft.2, sameType ▸ readsRight.2⟩)
  have second := summed.grows first.wellFormed
    (Layout.dense_wellFormed (leftWf.current.fits.sublist (List.eraseIdx_sublist _ _))) (by
      have type : product.dtype = left.dtype := by rw [multiplied.result]
      simpa only [List.forall_mem_singleton, type] using first.result.2)
  exact ⟨second.wellFormed, first.defers.trans second.defers, second.result⟩

end Buffer

namespace BuildCall

variable {graph : Graph}

/-- A call on a graph that keeps to the rules makes what it should or leaves the graph alone.
Operands of other graphs are refused, so nothing is asked of them.
-/
theorem step_ends (wf : graph.WellFormed) (call : BuildCall) (own : call.graph = graph.id)
    (held : ∀ operand ∈ call.operands, operand.graph = graph.id → operand.In graph)
    : Ends call.step graph (call.Makes graph) (fun _ final => final = graph) := by
  cases call with
  | fill _ op shape argument dtype =>
      refine (Build.fill_ends op shape argument dtype graph).mono ?_ (fun _ _ same => same)
      intro result final outcome
      rcases outcome with ⟨fits, recorded⟩
      exact recorded.grows wf (Layout.dense_wellFormed fits) (by simp)
  | ofArray _ dtype data shape => exact Build.ofArray_ends dtype data shape graph
  | elementwise left kind others =>
      have heldLeft := held left (by simp [operands]) own
      refine (left.elementwise_ends kind others graph).mono ?_ (fun _ _ same => same)
      intro result final outcome
      rcases outcome with ⟨fit, layout, layoutWf, recorded⟩
      refine recorded.grows wf (layoutWf heldLeft.2.1) ?_
      simp only [List.map_cons, List.forall_mem_cons, List.forall_mem_map]
      refine ⟨heldLeft.2, ?_⟩
      intro other member
      obtain ⟨sameGraph, sameType⟩ := fit other member
      have heldOther :=
        held other (List.mem_cons_of_mem _ member) (sameGraph.symm.trans own)
      exact sameType ▸ heldOther.2
  | reshape buffer shape =>
      have heldBuffer := held buffer (by simp [operands]) own
      exact Buffer.view_grows wf heldBuffer (·.reshape shape)
        fun _ done => Layout.WellFormed.reshape heldBuffer.2.1 done
  | expand buffer shape =>
      have heldBuffer := held buffer (by simp [operands]) own
      exact Buffer.view_grows wf heldBuffer (·.expand shape)
        fun _ done => Layout.WellFormed.expand heldBuffer.2.1 done
  | permute buffer order =>
      have heldBuffer := held buffer (by simp [operands]) own
      refine (buffer.permute_ends order graph).mono ?_ (fun _ _ same => same)
      intro result final outcome
      rcases outcome with ⟨accepted, recorded⟩
      have fits := heldBuffer.2.1.current.fits.perm
        (Buffer.permutedShape_perm accepted).symm
      exact recorded.grows wf (Layout.dense_wellFormed fits) (by simpa using heldBuffer.2)
  | pad buffer padding =>
      have heldBuffer := held buffer (by simp [operands]) own
      refine (buffer.pad_ends padding graph).mono ?_ (fun _ _ same => same)
      intro result final outcome
      rcases outcome with ⟨shape, fits, recorded⟩
      exact recorded.grows wf (Layout.dense_wellFormed fits) (by simpa using heldBuffer.2)
  | reduce buffer op axis =>
      have heldBuffer := held buffer (by simp [operands]) own
      refine (buffer.reduce_ends op axis graph).mono ?_ (fun _ _ same => same)
      intro result final outcome
      rcases outcome with ⟨inside, recorded⟩
      have fits := heldBuffer.2.1.current.fits.sublist (List.eraseIdx_sublist _ axis)
      exact recorded.grows wf (Layout.dense_wellFormed fits) (by simpa using heldBuffer.2)
  | matmul left right =>
      exact Buffer.matmul_grows wf (held left (by simp [operands]) own)
        (held right (by simp [operands]))
  | dot left right =>
      have heldLeft := held left (by simp [operands]) own
      refine (left.dot_ends right graph).mono ?_ (fun _ _ same => same)
      intro result final outcome
      rcases outcome with ⟨sameGraph, sameType, shape, fits, recorded⟩
      have heldRight := held right (by simp [operands]) (sameGraph.symm.trans own)
      refine recorded.grows wf (Layout.dense_wellFormed fits) ?_
      simp only [List.forall_mem_cons, List.not_mem_nil, false_imp_iff, implies_true, and_true]
      exact ⟨heldLeft.2, sameType ▸ heldRight.2⟩

/-- A call keeps a graph to the rules, however it ends, and its answer is a buffer of the graph.
-/
theorem step_later (wf : graph.WellFormed) {call : BuildCall} (own : call.graph = graph.id)
    (held : ∀ operand ∈ call.operands, operand.graph = graph.id → operand.In graph)
    : ((outcome call.step graph).2.WellFormed ∧ graph.Extends (outcome call.step graph).2)
      ∧ ∀ buffer,
          (outcome call.step graph).1 = .ok buffer → buffer.In (outcome call.step graph).2 := by
  have ends := call.step_ends wf own held
  constructor
  · refine Ends.final (fun final => final.WellFormed ∧ graph.Extends final) (ends.mono ?_ ?_)
    · intro result final makes
      exact ⟨(makes.keeps wf).1, (makes.keeps wf).2.1⟩
    · intro _ _ same
      subst same
      exact ⟨wf, .refl _⟩
  · intro buffer given
    exact ((ends.of_ok given).keeps wf).2.2

end BuildCall

end LazyTensor
