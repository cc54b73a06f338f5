import LazyTensor.Proofs.Reference.Views

/-! Contractions of arrays. The last dimension of one array and the first of another are shared, and
an element of the contraction is the sum of the products along them. The composition that makes
one puts dimensions of size one around both views, broadcasts them to all dimensions together,
multiplies, and sums along the shared dimension, wherever the rank of the first array puts it.
-/

namespace LazyTensor

-----------------------------------------------------------------------------------------
-- Views that are spread to more dimensions
-----------------------------------------------------------------------------------------

namespace Layout

/-- The layout with dimensions of size one around it, broadcast to a shape. -/
def spread (layout : Layout) (leading trailing : Nat) (shape : Shape) : Layout :=
  let units := layout.insertUnits leading trailing
  units.push (units.current.expanded shape)

/-- A view with dimensions of size one around it grows to any extents there. -/
theorem expandsTo_insertUnits (layout : Layout) (front back : Shape)
    : (layout.insertUnits front.length back.length).current.expandsTo
        (front ++ layout.shape ++ back)
      = true := by
  have grow (extents : Shape)
      : List.Forall₂ (fun current new => current = new ∨ current = 1)
          (List.replicate extents.length 1) extents := by
    induction extents with
    | nil => exact .nil
    | cons extent inner ih => exact .cons (Or.inr rfl) ih
  have stay
      : List.Forall₂ (fun current new => current = new ∨ current = 1) layout.shape layout.shape :=
    List.forall₂_same.mpr fun _ _ => Or.inl rfl
  exact View.expandsTo_iff.mpr (List.rel_append (List.rel_append (grow front) stay) (grow back))

variable {layout : Layout} {front back target : Shape}

/-- Spreading a view is refused only for a shape of too many elements. -/
theorem expand_insertUnits (grown : front ++ layout.shape ++ back = target)
    : (layout.insertUnits front.length back.length).expand target
      = if target.isValid then .ok (layout.spread front.length back.length target)
        else .error (.invalidShape target) := by
  subst grown
  split
  · next valid =>
      exact expand_eq_ok_iff.mpr
        ⟨Shape.isValid_iff.mp valid, layout.expandsTo_insertUnits front back, rfl⟩
  · next invalid => exact expand_of_not_valid invalid

/-- The coordinates that are added do not matter: their remainders are zeros. -/
theorem WellFormed.place_spread (wf : layout.WellFormed) (fits : target.Fits)
    (grown : front ++ layout.shape ++ back = target) {before index after : Index}
    (lengthBefore : before.length = front.length) (held : layout.shape.Holds index)
    (lengthAfter : after.length = back.length)
    : (layout.spread front.length back.length target).place (before ++ index ++ after)
      = layout.place index := by
  have done := expand_insertUnits grown
  rw [if_pos (Shape.isValid_iff.mpr fits)] at done
  have remainders
      : (before ++ index ++ after).zipWith (· % ·)
            (List.replicate front.length 1 ++ layout.shape ++ List.replicate back.length 1)
        = before.zipWith (· % ·) (List.replicate front.length 1) ++ index
          ++ after.zipWith (· % ·) (List.replicate back.length 1) := by
    rw [List.zipWith_append (by simp [lengthBefore, held.length_eq]),
      List.zipWith_append (by simp [lengthBefore]), held.zipWith_mod]
  -- Once the factors are gone, the coordinates along dimensions of size one have no stride.
  have inside (first last : Index) (lengthFirst : first.length = front.length)
      (lengthLast : last.length = back.length)
      : (layout.insertUnits front.length back.length).place (first ++ index ++ last)
        = layout.place index := by
    rw [← lengthFirst, ← lengthLast]
    exact wf.place_insertUnits held.length_eq
  rw [(wf.insertUnits _ _).place_expand done]
  exact (congrArg _ remainders).trans
    (inside _ _ (by simp [lengthBefore]) (by simp [lengthAfter]))

end Layout

-----------------------------------------------------------------------------------------
-- Sums of products
-----------------------------------------------------------------------------------------

namespace LogicalArray

/-- The sum of the products of the elements at the end of a row and at the head of a column, in the
order of the shared dimension.
-/
def contracted (arith : Arithmetic) (dtype : DType) (left right : LogicalArray) (row column : Index)
    : Pattern :=
  (List.range (right.shape.headD 0)).foldl
    (fun total place =>
      arith.binary dtype .add total
        (arith.binary dtype .mul (left.value (row ++ [place])) (right.value (place :: column))))
    0

/-- A product of two matrices is a contraction. -/
theorem multiplied_eq_contracted {arith : Arithmetic} {dtype : DType} {left right : LogicalArray}
    (shared : left.shape.getD 1 0 = right.shape.headD 0) (row column : Nat)
    : left.multiplied arith dtype right row column
      = left.contracted arith dtype right [row] [column] := by
  rw [multiplied, shared]
  rfl

end LogicalArray

namespace Graph

variable {arith : Arithmetic} {given : Nat → Array Pattern} {graph : Graph}

/-- The nodes of a composed contraction: the products of two views that are spread to all
dimensions, and their sums along the shared one.
-/
structure Contracts (graph : Graph) (dtype : DType) (left right : Source) (outer : Shape)
    (inner : Nat) (rest : Shape) (product total : Nat)
    : Prop where
  leftShape : left.layout.shape = outer ++ [inner]
  rightShape : right.layout.shape = inner :: rest
  fits : (outer ++ inner :: rest).Fits
  multiplied
    : graph.MadeBy product
        ⟨.binary .mul,
          [⟨left.node, left.layout.spread 0 rest.length (outer ++ inner :: rest)⟩,
            ⟨right.node, right.layout.spread outer.length 0 (outer ++ inner :: rest)⟩],
          none⟩
        dtype (.dense (outer ++ inner :: rest))
  summed
    : graph.MadeBy total
        ⟨.reduce .sum, [⟨product, .dense (outer ++ inner :: rest)⟩], some (.axis outer.length)⟩
        dtype (.dense (outer ++ rest))

variable {dtype : DType} {left right : Source} {outer rest : Shape} {inner product total : Nat}

/-- Between a row and a column the first node shows the product of the last element of the row and
the first of the column.
-/
theorem Contracts.product_eq
    (contracts : graph.Contracts dtype left right outer inner rest product total)
    (wf : graph.WellFormed) (leftWf : left.layout.WellFormed) (rightWf : right.layout.WellFormed)
    {row column : Index} (heldRow : outer.Holds row) (heldColumn : rest.Holds column) {place : Nat}
    (below : place < inner)
    : (graph.shown arith given ⟨product, .dense (outer ++ inner :: rest)⟩).value
          (row ++ place :: column)
      = arith.binary dtype .mul ((graph.shown arith given left).value (row ++ [place]))
          ((graph.shown arith given right).value (place :: column)) := by
  obtain ⟨leftShape, rightShape, fits, multiplied, _⟩ := contracts
  have held : (outer ++ inner :: rest).Holds (row ++ place :: column) :=
    List.rel_append heldRow (.cons below heldColumn)
  have heldLeft : left.layout.shape.Holds (row ++ [place]) :=
    leftShape ▸ List.rel_append heldRow (.cons below .nil)
  have heldRight : right.layout.shape.Holds (place :: column) :=
    rightShape ▸ .cons below heldColumn
  have nothing : ([] : Index).length = ([] : Shape).length := rfl
  rw [multiplied.shown_own wf held, multiplied.reference_eq wf]
  refine congrArg₂ (arith.binary dtype .mul) (shown_eq_of_place_eq ?_) (shown_eq_of_place_eq ?_)
  · have grown : [] ++ left.layout.shape ++ rest = outer ++ inner :: rest := by simp [leftShape]
    have same := leftWf.place_spread fits grown nothing heldLeft heldColumn.length_eq
    rwa [List.nil_append, List.append_assoc] at same
  · have grown : outer ++ right.layout.shape ++ [] = outer ++ inner :: rest := by simp [rightShape]
    have same := rightWf.place_spread fits grown heldRow.length_eq heldRight nothing
    rwa [List.append_nil] at same

/-- A composed contraction shows at a row and a column the sum of the products along the shared
dimension.
-/
theorem Contracts.shown_eq
    (contracts : graph.Contracts dtype left right outer inner rest product total)
    (wf : graph.WellFormed) (leftWf : left.layout.WellFormed) (rightWf : right.layout.WellFormed)
    {row column : Index} (heldRow : outer.Holds row) (heldColumn : rest.Holds column)
    : (graph.shown arith given ⟨total, .dense (outer ++ rest)⟩).value (row ++ column)
      = (graph.shown arith given left).contracted arith dtype (graph.shown arith given right) row
          column := by
  have shared : (graph.shown arith given right).shape.headD 0 = inner := by
    rw [shown, contracts.rightShape, List.headD_cons]
  have extent
      : (graph.shown arith given ⟨product, .dense (outer ++ inner :: rest)⟩).shape.getD
            outer.length 0
        = inner := by
    simp [shown]
  have start : dtype.ofBinary64 (Reduction.identity .sum) = 0 := dtype.ofBinary64_zero
  rw [contracts.summed.shown_own wf (List.rel_append heldRow heldColumn),
    contracts.summed.reference_eq wf]
  change LogicalArray.folded arith dtype .sum outer.length _ _ = _
  rw [LogicalArray.folded, LogicalArray.contracted, shared, extent, start]
  refine List.foldl_ext _ _ _ ?_
  intro sum place member
  -- The axis that was summed along stands right behind the row, whatever the ranks are.
  have inserted : (row ++ column).insertIdx outer.length place = row ++ place :: column := by
    rw [← heldRow.length_eq]
    exact List.modifyTailIdx_add (List.cons place) 0 row column
  rw [inserted,
    contracts.product_eq wf leftWf rightWf heldRow heldColumn (List.mem_range.mp member)]
  rfl

theorem Extends.contracts {old new : Graph} (later : old.Extends new)
    (contracts : old.Contracts dtype left right outer inner rest product total)
    : new.Contracts dtype left right outer inner rest product total :=
  { contracts with
    multiplied := later.madeBy contracts.multiplied
    summed := later.madeBy contracts.summed }

/-- A product of two matrices as one operation is a contraction, too. -/
theorem MadeBy.shown_matmul {position rows columns : Nat}
    (made
      : graph.MadeBy position ⟨.binary .matmul, [left, right], none⟩ dtype (.dense [rows, columns]))
    (wf : graph.WellFormed) (leftShape : left.layout.shape = [rows, inner])
    (rightShape : right.layout.shape = [inner, columns]) {row column : Nat} (rowBelow : row < rows)
    (columnBelow : column < columns)
    : (graph.shown arith given ⟨position, .dense [rows, columns]⟩).value [row, column]
      = (graph.shown arith given left).contracted arith dtype (graph.shown arith given right) [row]
          [column] := by
  have held : Shape.Holds [rows, columns] [row, column] := by simp [rowBelow, columnBelow]
  rw [made.shown_own wf held, made.reference_eq wf]
  exact LogicalArray.multiplied_eq_contracted (by simp [shown, leftShape, rightShape]) row column

end Graph

namespace Buffer

/-- A buffer is spread unless the shape has too many elements. -/
theorem ends_spread {buffer : Buffer} {front back target : Shape}
    (grown : front ++ buffer.shape ++ back = target) {graph : Graph} {done : Buffer → Graph → Prop}
    {failed : GraphError → Graph → Prop}
    : Ends ((buffer.withUnits front.length back.length).expand target) graph done failed
      ↔ if target.isValid then
          done (buffer.withLayout (buffer.layout.spread front.length back.length target)) graph
        else failed (.invalidShape target) graph := by
  have answer : (buffer.withUnits front.length back.length).layout.expand target = _ :=
    Layout.expand_insertUnits grown
  rw [expand, view, answer]
  by_cases valid : target.isValid = true
  · rw [if_pos valid, if_pos valid]
    rfl
  · rw [if_neg valid, if_neg valid]
    rfl

/-- Two arrays with a shared dimension have a contraction unless their dimensions together have too
many elements. A refusal says so and leaves the graph alone.
-/
theorem contracts_matmul {left right : Buffer} {outer rest : Shape} {inner : Nat}
    (sameGraph : left.graph = right.graph) (sameType : left.dtype = right.dtype)
    (leftShape : left.shape = outer ++ [inner]) (rightShape : right.shape = inner :: rest)
    (graph : Graph)
    : Ends (left.matmul right) graph
        (fun result final =>
          result = ⟨graph.id, graph.size + 1, left.dtype, .dense (outer ++ rest)⟩
          ∧ final.Contracts left.dtype left.source right.source outer inner rest graph.size
              (graph.size + 1))
        (fun cause final =>
          ¬ (outer ++ inner :: rest).Fits
          ∧ cause = .invalidShape (outer ++ inner :: rest)
          ∧ final = graph) := by
  have leftRank : left.rank = outer.length + 1 := by
    change left.shape.length = _
    simp [leftShape]
  have rightRank : right.rank = rest.length + 1 := by
    change right.shape.length = _
    simp [rightShape]
  have shared : left.shape.getLast? = right.shape.head? := by simp [leftShape, rightShape]
  have target : left.shape ++ right.shape.tail = outer ++ inner :: rest := by
    simp [leftShape, rightShape]
  have leftTarget : [] ++ left.shape ++ rest = outer ++ inner :: rest := by simp [leftShape]
  have rightTarget : outer ++ right.shape ++ [] = outer ++ inner :: rest := by simp [rightShape]
  simp only [matmul, ends_bind, ends_checkCompatible, Build.ends_require, if_pos sameGraph,
    if_pos sameType, leftRank, rightRank, shared, Nat.succ_pos, decide_true, if_true,
    beq_self_eq_true, target, Nat.add_sub_cancel]
  -- Both operands are spread to one shape, so a refusal comes before anything is recorded.
  refine (ends_spread leftTarget).mpr ?_
  by_cases fits : (outer ++ inner :: rest).Fits
  · have valid := Shape.isValid_iff.mpr fits
    rw [if_pos valid]
    refine (ends_spread rightTarget).mpr ?_
    rw [if_pos valid, ← ends_bind]
    refine (sumOfProducts_ends graph ?_ ?_ ?_ ?_).mono ?_ (fun _ _ absurd => absurd.elim)
    · exact sameGraph
    · exact sameType
    · rfl
    · change outer.length < (outer ++ inner :: rest).length
      simp
    · intro result final outcome
      rcases outcome with ⟨product, middle, multiplied, summed⟩
      obtain ⟨first, later, size, rfl⟩ := Graph.madeBy_of_records multiplied
      obtain ⟨last, onward, _, rfl⟩ := Graph.madeBy_of_records summed
      have dropped : (outer ++ inner :: rest).dropAxis outer.length = outer ++ rest := by
        simp [Shape.dropAxis, List.eraseIdx_append_of_length_le]
      refine ⟨?_, leftShape, rightShape, fits, onward.madeBy first, ?_⟩
      · rw [later.id, size]
        exact congrArg (fun shape => (⟨_, _, _, .dense shape⟩ : Buffer)) dropped
      · have made := last
        rw [size] at made
        exact dropped ▸ made
  · rw [if_neg (mt Shape.isValid_iff.mp fits)]
    exact ⟨fits, rfl, rfl⟩

end Buffer

end LazyTensor
