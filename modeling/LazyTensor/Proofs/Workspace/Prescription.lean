import LazyTensor.Proofs.Shape.Rearrangement
import LazyTensor.Proofs.Workspace.Reachable

/-! What operations prescribe. The layout of a node follows from the kind of its operation, the
layouts under which its sources are read and its argument, and no builder records an operation that
prescribes nothing. So every node of every graph that callers can build has the sources, the argument
and the shape that its operation asks for.
-/

namespace LazyTensor

/-- Every stored element is shown once. -/
def Layout.IsDense (layout : Layout) : Prop := layout = .dense layout.shape

/-- An operation has as many sources as its kind takes, the argument that its kind needs, sources
and argument fit each other, and the result has the layout that follows from them. All results but
those of a map of one source are dense.
-/
def Operation.Prescribes (operation : Operation) (layout : Layout) : Prop :=
  match operation.kind, operation.sources, operation.argument with
  | .fill .empty, [], none => layout.IsDense
  | .fill .constant, [], some (.value _) => layout.IsDense
  | .fill .random, [], some (.seed _) => layout.IsDense
  | .unary _, [source], none => layout = source.layout
  | .binary .matmul, [left, right], none =>
      ∃ rows inner columns,
        left.layout.shape = [rows, inner]
        ∧ right.layout.shape = [inner, columns]
        ∧ layout = .dense [rows, columns]
  | .binary _, [left, right], none =>
      right.layout.shape = left.layout.shape ∧ layout = .dense left.layout.shape
  | .reduce _, [source], some (.axis axis) =>
      axis < source.layout.rank ∧ layout = .dense (source.layout.shape.eraseIdx axis)
  | .movement .permute, [source], some (.order order) =>
      order.Perm (List.range source.layout.rank)
      ∧ layout = .dense (order.map fun axis => source.layout.shape.getD axis 0)
  | .movement .pad, [source], some (.padding padding) =>
      padding.length = source.layout.rank
      ∧ layout
        = .dense
            (source.layout.shape.zipWith (fun extent (before, after) => before + extent + after)
              padding)
  | _, _, _ => False

/-- What the checks of the builders accept is what the operation prescribes, by cases on the kind. -/
theorem Operation.Yields.prescribes {operation : Operation} {layout : Layout}
    (yields : operation.Yields layout)
    : operation.Prescribes layout := by
  cases yields with
  | empty | constant | random => rfl
  | unary => rfl
  | binary op left right elementwise same =>
      cases op with
      | matmul => exact absurd rfl elementwise
      | _ => exact ⟨same, rfl⟩
  | matmul left right leftShape rightShape => exact ⟨_, _, _, leftShape, rightShape, rfl⟩
  | reduce op source inside => exact ⟨inside, rfl⟩
  | permute source accepted =>
      exact ⟨isPermutation_iff.mp accepted, congrArg _ (Shape.permutedShape_eq_map accepted)⟩
  | pad source length padded =>
      refine ⟨length, congrArg _ ((Shape.paddedShape_eq padded).trans ?_)⟩
      exact congrArg (List.zipWith · _ _) (funext₂ fun extent pair => by rw [Nat.add_comm extent])

/-- On every desk that callers can come to, a buffer that is held shows a node of its type under a
layout of as many stored elements as the node has, and all views of this layout follow the rules.
So do the views of every node. A node that is made by an operation has as many sources as the kind
takes; each is an earlier node of its type, read under a layout that follows the rules, of as many
stored elements as that node has; and its own layout is the one that the operation prescribes.
Data from outside is dense.
-/
theorem Desk.Reachable.node_prescribed {desk : Desk} (reached : desk.Reachable)
    : (∀ buffer ∈ desk.buffers,
        buffer.layout.WellFormed
        ∧ ∃ node,
            (desk.workspace.graph buffer.graph).nodes[buffer.node]? = some node
            ∧ node.dtype = buffer.dtype
            ∧ buffer.layout.physicalSize = node.layout.physicalSize)
      ∧ ∀ (id position : Nat) (node : Node),
          (desk.workspace.graph id).nodes[position]? = some node →
            node.layout.WellFormed
            ∧ (node.producer = none → node.layout.IsDense)
            ∧ ∀ operation, node.producer = some operation →
                operation.sources.length = operation.kind.arity
                ∧ operation.Prescribes node.layout
                ∧ ∀ source ∈ operation.sources,
                    source.node < position
                    ∧ source.layout.WellFormed
                    ∧ ∃ origin,
                        (desk.workspace.graph id).nodes[source.node]? = some origin
                        ∧ origin.dtype = node.dtype
                        ∧ source.layout.physicalSize = origin.layout.physicalSize := by
  have wf := reached.wellFormed
  constructor
  · intro buffer held
    exact (wf.buffers buffer held).2
  · intro id position node found
    have nodeWf := (wf.workspace id).2 position node found
    refine ⟨nodeWf.layout, fun external => (nodeWf.external external).2, ?_⟩
    intro operation made
    have yields := nodeWf.yields operation made
    refine ⟨yields.arity, yields.prescribes, ?_⟩
    intro source member
    exact ⟨nodeWf.earlier operation made source member, nodeWf.reads operation made source member⟩

/-- The sums of the sample read the negated rows, which are earlier, and drop the dimension of the
rows.
-/
theorem Desk.node_prescribed_sample
    : sampleNegated.layout.WellFormed
      ∧ ∃ node operation,
          (sample.workspace.graph 0).nodes[2]? = some node
          ∧ node.producer = some operation
          ∧ operation.sources = [sampleNegated.source]
          ∧ operation.Prescribes node.layout
          ∧ sampleNegated.node < 2 := by
  obtain ⟨buffers, nodes⟩ := reachable_sample.node_prescribed
  refine ⟨(buffers sampleNegated (by decide)).1, _, _, rfl, rfl, rfl, ?_⟩
  obtain ⟨_, _, made⟩ := nodes 0 2 _ rfl
  obtain ⟨_, prescribed, sources⟩ := made _ rfl
  exact ⟨prescribed, (sources sampleNegated.source (by decide)).1⟩

end LazyTensor
