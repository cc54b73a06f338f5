import LazyTensor.Proofs.Graph.WellFormed
import LazyTensor.Proofs.Outcome

/-! What each builder does to a graph. A builder that fails leaves the graph as it was. One that
succeeds answers with another view of its receiver, or appends a node whose operation fits its
kind; the contraction of two arrays appends two.
-/

namespace LazyTensor

/-- A node that waits to be computed. -/
def Node.deferred (operation : Operation) (dtype : DType) (layout : Layout) : Node where
  producer := some operation
  device := .host
  dtype := dtype
  layout := layout
  storage := none
  computed := false

/-- A node of data from outside. -/
def Node.given (dtype : DType) (data : Array Pattern) (shape : Shape) : Node where
  producer := none
  device := .host
  dtype := dtype
  layout := .dense shape
  storage := some ⟨dtype, data⟩
  computed := true

theorem Storage.ofArray_eq_ok {dtype : DType} {data : Array Pattern} {gives : Nat → Bool}
    {storage : Storage} (done : Storage.ofArray dtype data gives = .ok storage)
    : storage = ⟨dtype, data⟩ := by
  rw [Storage.ofArray, Storage.allocate] at done
  split at done
  · cases done
  · simpa [bind, Except.bind, Storage.overwrite, Storage.size, eq_comm] using done

namespace Build

/-- An operation that fits its kind has become the last node of a graph, and the answer is a
buffer of that node.
-/
structure Records (graph : Graph) (operation : Operation) (dtype : DType) (layout : Layout)
    (result : Buffer) (final : Graph)
    : Prop where
  yields : operation.Yields layout
  final : final = graph.push (.deferred operation dtype layout)
  result : result = ⟨graph.id, graph.size, dtype, layout⟩

section

variable {graph : Graph} {failed : GraphError → Graph → Prop}

@[simp] theorem ends_require {condition : Bool} {error : GraphError}
    {done : Unit → Graph → Prop}
    : Ends (require condition error) graph done failed
      ↔ if condition then done () graph else failed error graph := by
  rw [require]
  exact ends_ite

@[simp] theorem ends_record {kind : OpKind} {sources : List Buffer}
    {argument : Option Argument} {dtype : DType} {layout : Layout}
    {done : Buffer → Graph → Prop}
    : Ends (record kind sources argument dtype layout) graph done failed
      ↔ done ⟨graph.id, graph.size, dtype, layout⟩
          (graph.push (.deferred ⟨kind, sources.map Buffer.source, argument⟩ dtype layout)) :=
  Iff.rfl

end

/-- A fill needs a usable shape and the argument of its kind. -/
theorem fill_ends (op : Fill) (shape : Shape) (argument : Option Argument) (dtype : DType)
    (graph : Graph)
    : Ends (fill op shape argument dtype) graph
        (fun result final =>
          shape.Fits
          ∧ Records graph ⟨.fill op, [], argument⟩ dtype (.dense shape) result final)
        (fun _ final => final = graph) := by
  simp only [fill, ends_bind, ends_require]
  split
  · next valid =>
      have fits := Shape.isValid_iff.mp valid
      unfold checkFillArgument
      split
      · exact ⟨fits, .empty, rfl, rfl⟩
      · next bits => exact ⟨fits, .constant bits, rfl, rfl⟩
      · next seed => exact ⟨fits, .random seed, rfl, rfl⟩
      all_goals simp
  · trivial

/-- Data from outside need a usable shape of just as many elements. -/
theorem ofArray_ends (dtype : DType) (data : Array Pattern) (shape : Shape) (graph : Graph)
    : Ends (ofArray dtype data shape) graph
        (fun result final =>
          shape.Fits
          ∧ data.size = shape.size
          ∧ final = graph.push (.given dtype data shape)
          ∧ result = ⟨graph.id, graph.size, dtype, .dense shape⟩)
        (fun _ final => final = graph) := by
  simp only [ofArray, ends_bind, ends_require]
  split
  · next valid =>
      have fits := Shape.isValid_iff.mp valid
      split
      · next length =>
          have length : data.size = shape.size := beq_iff_eq.mp length
          rw [ends_get]
          split
          · simp
          · next storage made =>
              obtain rfl := Storage.ofArray_eq_ok made
              exact ⟨fits, length, rfl, rfl⟩
      · trivial
  · trivial

end Build

namespace Buffer

section

variable {graph : Graph} {failed : GraphError → Graph → Prop}

@[simp] theorem ends_checkCompatible {left right : Buffer} {done : Unit → Graph → Prop}
    : Ends (left.checkCompatible right) graph done failed
      ↔ if left.graph = right.graph then
          if left.dtype = right.dtype then done () graph
          else failed (.dtypeMismatch left.dtype right.dtype) graph
        else failed .graphMismatch graph := by
  simp only [checkCompatible, ends_bind, Build.ends_require, beq_iff_eq]

end

/-- Operands that pass the check belong to the graph of the first, have its element type and its
shape. Witness: induction on the operands.
-/
theorem checkOperands_ends (kind : OpKind) (left : Buffer) (others : List Buffer)
    (graph : Graph)
    : Ends (left.checkOperands kind others) graph
        (fun _ final =>
          final = graph
          ∧ ∀ other ∈ others,
              left.graph = other.graph ∧ left.dtype = other.dtype ∧ other.shape = left.shape)
        (fun _ final => final = graph) := by
  induction others with
  | nil => simp [checkOperands]
  | cons right rest ih =>
      simp only [checkOperands, ends_bind, ends_checkCompatible, Build.ends_require, beq_iff_eq]
      split
      · split
        · split
          · next sameGraph sameType sameShape =>
              refine ih.mono ?_ (fun _ _ unchanged => unchanged)
              intro _ final outcome
              rcases outcome with ⟨unchanged, checked⟩
              refine ⟨unchanged, ?_⟩
              exact List.forall_mem_cons.mpr ⟨⟨sameGraph, sameType, sameShape⟩, checked⟩
          · trivial
        · trivial
      · trivial

/-- A product of matrices needs two of one graph and type whose inner dimensions agree. -/
theorem dot_ends (left right : Buffer) (graph : Graph)
    : Ends (left.dot right) graph
        (fun result final =>
          left.graph = right.graph
          ∧ left.dtype = right.dtype
          ∧ ∃ shape : Shape,
              shape.Fits
              ∧ Build.Records graph ⟨.binary .matmul, [left.source, right.source], none⟩
                  left.dtype (.dense shape) result final)
        (fun _ final => final = graph) := by
  simp only [dot, ends_bind, ends_checkCompatible]
  split
  · split
    · next sameGraph sameType =>
        split
        · next rows inner inner' columns leftShape rightShape =>
            split
            · next same =>
                subst same
                simp only [ends_bind, Build.ends_require]
                split
                · next valid =>
                    exact ⟨sameGraph, sameType, _, Shape.isValid_iff.mp valid,
                      .matmul left.source right.source leftShape rightShape, rfl, rfl⟩
                · trivial
            · simp
        · simp
    · trivial
  · trivial

/-- A map of one operand is not refused and is stored like the operand. -/
@[simp] theorem ends_unary {buffer : Buffer} {op : UnaryMap} {graph : Graph}
    {done : Buffer → Graph → Prop} {failed : GraphError → Graph → Prop}
    : Ends (buffer.unary op) graph done failed
      ↔ done ⟨graph.id, graph.size, buffer.dtype, buffer.layout⟩
          (graph.push (.deferred ⟨.unary op, [buffer.source], none⟩ buffer.dtype buffer.layout)) :=
  Iff.rfl

/-- A map of two operands that fit each other is not refused. -/
theorem ends_binary_of_same {left right : Buffer} {op : BinaryMap} {graph : Graph}
    {done : Buffer → Graph → Prop} {failed : GraphError → Graph → Prop}
    (elementwise : op ≠ .matmul) (sameGraph : left.graph = right.graph)
    (sameType : left.dtype = right.dtype) (sameShape : right.shape = left.shape)
    : Ends (left.binary op right) graph done failed
      ↔ done ⟨graph.id, graph.size, left.dtype, .dense left.shape⟩
          (graph.push (.deferred ⟨.binary op, [left.source, right.source], none⟩ left.dtype
            (.dense left.shape))) := by
  unfold binary Buffer.elementwise
  simp only [ends_bind, Build.ends_require, OpKind.arity, List.length_singleton, beq_self_eq_true,
    if_true]
  split
  · next same _ => exact absurd (OpKind.binary.inj same) elementwise
  · simp only [checkOperands, ends_bind, ends_checkCompatible, if_pos sameGraph,
      if_pos sameType, Build.ends_require, sameShape, beq_self_eq_true, if_true, ends_pure]
    exact Iff.rfl

/-- A map of one or two operands of one graph, type and shape appends one node. -/
theorem elementwise_ends (left : Buffer) (kind : OpKind) (others : List Buffer)
    (graph : Graph)
    : Ends (left.elementwise kind others) graph
        (fun result final =>
          (∀ other ∈ others, left.graph = other.graph ∧ left.dtype = other.dtype)
          ∧ ∃ layout,
              (left.layout.WellFormed → layout.WellFormed)
              ∧ Build.Records graph ⟨kind, (left :: others).map Buffer.source, none⟩ left.dtype
                  layout result final)
        (fun _ final => final = graph) := by
  unfold elementwise
  cases kind with
  | fill op => simp
  | reduce op => simp
  | movement op => simp
  | unary op =>
      simp only [ends_bind, Build.ends_require, beq_iff_eq, OpKind.arity]
      split
      · next count =>
          obtain rfl : others = [] := List.length_eq_zero_iff.mp (by omega)
          simp only [checkOperands, ends_pure, Build.ends_record]
          exact ⟨by simp, left.layout, id, .unary op left.source, rfl, rfl⟩
      · trivial
  | binary op =>
      simp only [ends_bind, Build.ends_require, beq_iff_eq, OpKind.arity]
      split
      · next count =>
          obtain ⟨right, rfl⟩ := List.length_eq_one_iff.mp (Nat.succ.inj count)
          by_cases product : op = .matmul
          · subst product
            refine (dot_ends left right graph).mono ?_ (fun _ _ unchanged => unchanged)
            intro result final outcome
            rcases outcome with ⟨sameGraph, sameType, shape, fits, recorded⟩
            exact ⟨by simp [sameGraph, sameType], _, fun _ => Layout.dense_wellFormed fits,
              recorded⟩
          · split
            · next same _ => exact absurd (OpKind.binary.inj same) product
            · rw [ends_bind]
              refine (checkOperands_ends (.binary op) left [right] graph).mono ?_
                (fun _ _ unchanged => unchanged)
              intro _ final outcome
              rcases outcome with ⟨rfl, checked⟩
              obtain ⟨sameGraph, sameType, sameShape⟩ := checked right (by simp)
              simp only [Build.ends_record]
              exact ⟨by simp [sameGraph, sameType], _,
                fun wf => Layout.dense_wellFormed wf.current.fits,
                .binary op left.source right.source product sameShape, rfl, rfl⟩
      · trivial

/-- Another view of a node is a change of layout that is allowed. -/
theorem view_ends (buffer : Buffer) (change : Layout → Except Layout.Error Layout)
    (graph : Graph)
    : Ends (buffer.view change) graph
        (fun result final =>
          final = graph
          ∧ ∃ layout, change buffer.layout = .ok layout ∧ result = buffer.withLayout layout)
        (fun _ final => final = graph) := by
  rw [view]
  split
  · next layout changed => exact ⟨rfl, layout, changed, rfl⟩
  · trivial

/-- An accepted order of dimensions appends one node. -/
theorem permute_ends (buffer : Buffer) (order : List Nat) (graph : Graph)
    : Ends (buffer.permute order) graph
        (fun result final =>
          isPermutation order buffer.rank = true
          ∧ Build.Records graph ⟨.movement .permute, [buffer.source], some (.order order)⟩
              buffer.dtype (.dense (permutedShape buffer.shape order)) result final)
        (fun _ final => final = graph) := by
  simp only [permute, ends_bind, Build.ends_require]
  split
  · next accepted => exact ⟨accepted, .permute buffer.source accepted, rfl, rfl⟩
  · trivial

/-- Padding that fits appends one node. -/
theorem pad_ends (buffer : Buffer) (padding : List (Nat × Nat)) (graph : Graph)
    : Ends (buffer.pad padding) graph
        (fun result final =>
          ∃ shape : Shape,
            shape.Fits
            ∧ Build.Records graph ⟨.movement .pad, [buffer.source], some (.padding padding)⟩
                buffer.dtype (.dense shape) result final)
        (fun _ final => final = graph) := by
  simp only [pad, ends_bind, Build.ends_require, beq_iff_eq]
  split
  · next length =>
      split
      · trivial
      · next shape padded =>
          simp only [ends_bind, Build.ends_require]
          split
          · next valid =>
              exact ⟨shape, Shape.isValid_iff.mp valid, .pad buffer.source length padded, rfl,
                rfl⟩
          · trivial
  · trivial

@[simp] theorem ends_reduce {buffer : Buffer} {op : Reduction} {axis : Nat} {graph : Graph}
    {done : Buffer → Graph → Prop} {failed : GraphError → Graph → Prop}
    : Ends (buffer.reduce op axis) graph done failed
      ↔ if axis < buffer.rank then
          done ⟨graph.id, graph.size, buffer.dtype, .dense (buffer.shape.dropAxis axis)⟩
            (graph.push (.deferred ⟨.reduce op, [buffer.source], some (.axis axis)⟩ buffer.dtype
              (.dense (buffer.shape.dropAxis axis))))
        else failed (.axisOutOfRange axis buffer.rank) graph := by
  simp only [reduce, ends_bind, Build.ends_require, decide_eq_true_eq]
  exact Iff.rfl

/-- Folding a dimension that exists appends one node. -/
theorem reduce_ends (buffer : Buffer) (op : Reduction) (axis : Nat) (graph : Graph)
    : Ends (buffer.reduce op axis) graph
        (fun result final =>
          axis < buffer.rank
          ∧ Build.Records graph ⟨.reduce op, [buffer.source], some (.axis axis)⟩
              buffer.dtype (.dense (buffer.shape.dropAxis axis)) result final)
        (fun _ final => final = graph) := by
  rw [ends_reduce]
  split
  · next inside => exact ⟨inside, .reduce op buffer.source inside, rfl, rfl⟩
  · trivial

/-- The second half of a contraction: operands that fit each other are multiplied and summed
along a dimension that they have. Nothing is refused any more.
-/
theorem sumOfProducts_ends {left right : Buffer} {axis : Nat} (graph : Graph)
    (sameGraph : left.graph = right.graph) (sameType : left.dtype = right.dtype)
    (sameShape : right.shape = left.shape) (inside : axis < left.shape.length)
    : Ends (left.binary .mul right >>= (·.reduce .sum axis)) graph
        (fun result final =>
          ∃ (product : Buffer) (middle : Graph),
            Build.Records graph ⟨.binary .mul, [left.source, right.source], none⟩ left.dtype
              (.dense left.shape) product middle
            ∧ Build.Records middle ⟨.reduce .sum, [product.source], some (.axis axis)⟩
                left.dtype (.dense (left.shape.dropAxis axis)) result final)
        (fun _ _ => False) := by
  have differs : BinaryMap.mul ≠ .matmul := by decide
  rw [ends_bind, ends_binary_of_same differs sameGraph sameType sameShape, ends_reduce]
  split
  · refine ⟨_, _, ⟨.binary .mul left.source right.source differs sameShape, rfl, rfl⟩, ?_⟩
    exact ⟨.reduce .sum _ inside, rfl, rfl⟩
  · next outside => exact outside inside

/-- The contraction of two arrays of one graph and type appends a product of their broadcast
views and a sum over the shared dimension.
-/
theorem matmul_ends (left right : Buffer) (graph : Graph)
    : Ends (left.matmul right) graph
        (fun result final =>
          left.graph = right.graph
          ∧ left.dtype = right.dtype
          ∧ ∃ (target : Shape) (leftLayout rightLayout : Layout) (product : Buffer)
              (middle : Graph),
              (left.layout.insertUnits 0 (right.rank - 1)).expand target = .ok leftLayout
              ∧ (right.layout.insertUnits (left.rank - 1) 0).expand target = .ok rightLayout
              ∧ Build.Records graph
                  ⟨.binary .mul, [⟨left.node, leftLayout⟩, ⟨right.node, rightLayout⟩], none⟩
                  left.dtype (.dense leftLayout.shape) product middle
              ∧ Build.Records middle
                  ⟨.reduce .sum, [product.source], some (.axis (left.rank - 1))⟩
                  left.dtype (.dense (leftLayout.shape.dropAxis (left.rank - 1))) result final)
        (fun _ final => final = graph) := by
  simp only [matmul, ends_bind, ends_checkCompatible, Build.ends_require, decide_eq_true_eq,
    beq_iff_eq]
  split
  · split
    · split
      · split
        · split
          · next sameGraph sameType someLeft someRight shared =>
              refine (view_ends _ _ graph).mono ?_ (fun _ _ unchanged => unchanged)
              intro _ _ outcome
              rcases outcome with ⟨rfl, leftLayout, leftGrown, rfl⟩
              refine (view_ends _ _ _).mono ?_ (fun _ _ unchanged => unchanged)
              intro _ middle outcome
              rcases outcome with ⟨rfl, rightLayout, rightGrown, rfl⟩
              have leftShape := Layout.shape_of_expand leftGrown
              have rightShape := Layout.shape_of_expand rightGrown
              have inside : left.rank - 1 < leftLayout.shape.length := by
                have someLeft : 0 < left.shape.length := someLeft
                rw [leftShape, List.length_append]
                exact Nat.lt_of_lt_of_le (Nat.sub_lt someLeft Nat.one_pos) (Nat.le_add_right _ _)
              -- From here on the operands fit each other, so no check can fail.
              rw [← ends_bind]
              refine (sumOfProducts_ends _ ?_ ?_ ?_ ?_).mono ?_ (fun _ _ absurd => absurd.elim)
              · exact sameGraph
              · exact sameType
              · exact rightShape.trans leftShape.symm
              · exact inside
              · intro result final outcome
                rcases outcome with ⟨product, between, multiplied, summed⟩
                exact ⟨sameGraph, sameType, _, leftLayout, rightLayout, product, between,
                  leftGrown, rightGrown, multiplied, summed⟩
          · trivial
        · trivial
      · trivial
    · trivial
  · trivial

end Buffer

end LazyTensor
