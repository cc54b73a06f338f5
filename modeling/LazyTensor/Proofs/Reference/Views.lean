import LazyTensor.Proofs.Reference.Graph

/-! Arrays under views. A node shows its own array under its own layout. Reshaping reads the stored
elements in row-major order, expanding reads an element again along the dimensions that grow, and
dimensions of size one lead to no other element. None of this depends on what is computed.
-/

namespace LazyTensor

/-- Only a map of one source is not dense: it is stored like its source. -/
theorem Operation.Yields.dense_or_unary {operation : Operation} {layout : Layout}
    (yields : operation.Yields layout)
    : layout = .dense layout.shape
      ∨ ∃ op source, operation = ⟨.unary op, [source], none⟩ ∧ layout = source.layout := by
  cases yields with
  | unary op source => exact Or.inr ⟨op, source, rfl, rfl⟩
  | _ => exact Or.inl rfl

namespace Graph

variable {arith : Arithmetic} {given : Nat → Array Pattern} {graph : Graph}

/-- Views of one node that lead to one place show one element there. -/
theorem shown_eq_of_place_eq {node : Nat} {layout other : Layout} {index otherIndex : Index}
    (same : layout.place index = other.place otherIndex)
    : (graph.shown arith given ⟨node, layout⟩).value index
      = (graph.shown arith given ⟨node, other⟩).value otherIndex := by
  have own : graph.sourceIndex ⟨node, layout⟩ index
      = graph.sourceIndex ⟨node, other⟩ otherIndex := by
    simp only [sourceIndex, same]
  simp only [shown, own]

/-- Indices of a node that lead to one place have one element. -/
theorem WellFormed.reference_eq_of_place_eq (wf : graph.WellFormed) {position : Nat} {node : Node}
    (found : graph.nodes[position]? = some node) {index other : Index}
    (held : node.layout.shape.Holds index) (heldOther : node.layout.shape.Holds other)
    (same : node.layout.place index = node.layout.place other)
    : graph.reference arith given position index
      = graph.reference arith given position other := by
  have nodeWf := wf position node found
  have dense (layout : node.layout = .dense node.layout.shape) : index = other := by
    rw [layout, Layout.place_dense held, Layout.place_dense heldOther] at same
    exact held.eq_of_position_eq heldOther same
  cases made : node.producer with
  | none => rw [dense (nodeWf.external made).2]
  | some operation =>
      rcases (nodeWf.yields operation made).dense_or_unary with layout | ⟨op, source, rfl, layout⟩
      · rw [dense layout]
      · rw [reference_of_made wf found made]
        rw [layout] at same
        exact congrArg (arith.unary node.dtype op) (shown_eq_of_place_eq same)

/-- Under its own layout a node shows its own array. -/
theorem WellFormed.shown_own (wf : graph.WellFormed) {position : Nat} {node : Node}
    (found : graph.nodes[position]? = some node) {index : Index}
    (held : node.layout.shape.Holds index)
    : (graph.shown arith given ⟨position, node.layout⟩).value index
      = graph.reference arith given position index := by
  have own : graph.sourceIndex ⟨position, node.layout⟩ index
      = node.layout.indexOf (node.layout.place index) := by
    simp only [sourceIndex, found]
  have layoutWf := (wf position node found).layout.current
  obtain ⟨inside, stands⟩ := layoutWf.place_indexOf (layoutWf.place_lt held)
  simp only [shown, own]
  exact wf.reference_eq_of_place_eq found inside held stands

theorem MadeBy.shown_own {position : Nat} {operation : Operation} {dtype : DType} {layout : Layout}
    (made : graph.MadeBy position operation dtype layout) (wf : graph.WellFormed) {index : Index}
    (held : layout.shape.Holds index)
    : (graph.shown arith given ⟨position, layout⟩).value index
      = graph.reference arith given position index := by
  obtain ⟨node, found, stays⟩ := made
  have same : node.layout = layout := stays.layout
  subst same
  exact wf.shown_own found held

/-- A map of one operand is stored like the operand, so under any view of as many stored elements it
shows the map of what the operand shows under that view.
-/
theorem MadeBy.shown_unary {position node : Nat} {op : UnaryMap} {dtype : DType}
    {layout view : Layout}
    (made : graph.MadeBy position ⟨.unary op, [⟨node, layout⟩], none⟩ dtype layout)
    (wf : graph.WellFormed) (layoutWf : layout.WellFormed) (viewWf : view.WellFormed)
    (size : view.physicalSize = layout.physicalSize) {index : Index}
    (held : view.shape.Holds index)
    : (graph.shown arith given ⟨position, view⟩).value index
      = arith.unary dtype op ((graph.shown arith given ⟨node, view⟩).value index) := by
  have below : view.place index < layout.current.physicalSize :=
    (viewWf.current.place_lt held).trans_eq size
  -- The place that the view reads belongs to some index of the map's own layout.
  obtain ⟨inside, stands⟩ := layoutWf.current.place_indexOf below
  have own : layout.place (layout.indexOf (view.place index)) = view.place index := stands
  calc (graph.shown arith given ⟨position, view⟩).value index
      = (graph.shown arith given ⟨position, layout⟩).value (layout.indexOf (view.place index)) :=
        shown_eq_of_place_eq own.symm
    _ = graph.reference arith given position (layout.indexOf (view.place index)) :=
        made.shown_own wf inside
    _ = arith.unary dtype op
          ((graph.shown arith given ⟨node, layout⟩).value (layout.indexOf (view.place index))) := by
        rw [made.reference_eq wf]
        rfl
    _ = arith.unary dtype op ((graph.shown arith given ⟨node, view⟩).value index) :=
        congrArg _ (shown_eq_of_place_eq own)

/-- A reshaped view shows the stored elements in row-major order. -/
theorem shown_reshape {node : Nat} {layout reshaped : Layout} (wf : layout.WellFormed) {shape : Shape}
    (done : layout.reshape shape = .ok reshaped) {index : Index} (held : shape.Holds index)
    : (graph.shown arith given ⟨node, reshaped⟩).value index
      = (graph.shown arith given ⟨node, layout⟩).value
          (layout.physicalShape.indexAt (shape.position index)) :=
  shown_eq_of_place_eq (wf.place_reshape done held)

/-- An expanded view shows an element again wherever the remainders of the coordinates are the same.
-/
theorem shown_expand {node : Nat} {layout expanded : Layout} (wf : layout.WellFormed) {shape : Shape}
    (done : layout.expand shape = .ok expanded) (index : Index)
    : (graph.shown arith given ⟨node, expanded⟩).value index
      = (graph.shown arith given ⟨node, layout⟩).value (index.zipWith (· % ·) layout.shape) :=
  shown_eq_of_place_eq (wf.place_expand done index)

/-- Coordinates of inserted dimensions do not matter. -/
theorem shown_insertUnits {node : Nat} {layout : Layout} (wf : layout.WellFormed)
    {front index back : Index} (length : index.length = layout.rank)
    : (graph.shown arith given ⟨node, layout.insertUnits front.length back.length⟩).value
          (front ++ index ++ back)
      = (graph.shown arith given ⟨node, layout⟩).value index :=
  shown_eq_of_place_eq (wf.place_insertUnits length)

end Graph

end LazyTensor
