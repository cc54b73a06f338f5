import LazyTensor.Proofs.Kernel.Limits
import LazyTensor.Proofs.Kernel.Safety

/-! The bounds of loops against the range of their counters. A kernel counts through its target, or
through dimensions that are no longer than the target is large, and so these bounds fit wherever the
target can be stored. The exception is a dimension that a kernel folds, which the target lacks. It
fits if a source stores it; but where every source reads one stored element again, it can be as long
as a shape allows, and then a bound can be too large for the type of the counters.
-/

namespace LazyTensor

open Code Kernel

-----------------------------------------------------------------------------------------
-- Dimensions
-----------------------------------------------------------------------------------------

/-- No dimension is longer than a usable shape is large. -/
theorem Shape.Fits.le_volume {shape : Shape} (fits : shape.Fits) {extent : Nat}
    (member : extent ∈ shape)
    : extent ≤ shape.volume := by
  have part := volume_le_of_sublist (List.singleton_sublist.mpr member) fits.positive
  rwa [volume_cons, volume_nil, Nat.mul_one] at part

/-- A dimension that is not broadcast is no longer than what is stored. -/
theorem View.WellFormed.le_physicalSize {view : View} (wf : view.WellFormed) {axis extent : Nat}
    (here : view.shape[axis]? = some extent) (stored : view.factors[axis]? = some 1)
    : extent ≤ view.physicalSize := by
  have kept : view.physicalShape[axis]? = some extent := by
    rw [physicalShape, List.getElem?_zipWith, here, stored]
    exact congrArg some (Nat.div_one extent)
  rw [wf.physicalSize_eq]
  exact wf.physicalShape_fits.le_volume (List.mem_of_getElem? kept)

/-- Padding makes no dimension shorter, by induction on the dimensions. -/
theorem Shape.exists_padded {shape : Shape} {padding : List (Nat × Nat)}
    (length : padding.length = shape.length) {extent : Nat} (member : extent ∈ shape)
    : ∃ padded ∈ shape.zipWith (fun extent pair => extent + pair.1 + pair.2) padding,
        extent ≤ padded := by
  induction shape generalizing padding with
  | nil => cases member
  | cons first inner ih =>
      cases padding with
      | nil => cases length
      | cons pair others =>
          rcases List.mem_cons.mp member with rfl | inside
          · have least : extent ≤ extent + pair.1 + pair.2 := by omega
            exact ⟨_, List.mem_cons_self, least⟩
          · obtain ⟨padded, found, most⟩ := ih (Nat.succ.inj length) inside
            exact ⟨padded, List.mem_cons_of_mem _ found, most⟩

-----------------------------------------------------------------------------------------
-- Folds
-----------------------------------------------------------------------------------------

/-- A dimension of a source that a kernel folds. -/
structure Fold where
  source : Buffer
  axis : Nat
deriving DecidableEq, Repr

namespace Fold

/-- How many elements are folded into one. -/
def extent (fold : Fold) : Nat := fold.source.shape.getD fold.axis 0

theorem getElem?_axis {source : Buffer} {axis : Nat} (inside : axis < source.rank)
    : source.shape[axis]? = some (extent ⟨source, axis⟩) := by
  rw [extent, List.getD_eq_getElem?_getD]
  cases found : source.shape[axis]? with
  | none => exact absurd inside (Nat.not_lt.mpr (List.getElem?_eq_none_iff.mp found))
  | some extent => rfl

/-- The elements are stored: they are not one element that is read again. -/
def IsStored (fold : Fold) : Prop := fold.source.layout.factors[fold.axis]? = some 1

end Fold

/-- The dimensions that the kernel of a task folds. -/
def Task.folds (task : Task) : List Fold :=
  match task.kind with
  | .reduce _ => task.sources.zipWith Fold.mk task.operation.axis?.toList
  | .binary .matmul => task.sources.zipWith Fold.mk [1, 0]
  | _ => []

-----------------------------------------------------------------------------------------
-- Bounds of kernels
-----------------------------------------------------------------------------------------

namespace Kernel

/-- The bounds of statements one after the other, by induction on the statements. -/
theorem bounds_ofList (list : List Stmt) : (Stmt.ofList list).bounds = list.flatMap (·.bounds) := by
  induction list with
  | nil => rfl
  | cons body others ih =>
      cases others with
      | nil => simp [Stmt.ofList]
      | cons => exact congrArg (body.bounds ++ ·) ih

/-- A statement has the same bounds as it is printed, by induction on the statement. -/
theorem bounds_printed (dtype : DType) (body : Stmt) : (body.printed dtype).bounds = body.bounds := by
  induction body with
  | skip => rfl
  | seq first second ihFirst ihSecond =>
      rw [Stmt.printed, Stmt.steps, bounds_ofList, List.flatMap_append, ← bounds_ofList,
        ← bounds_ofList]
      exact congrArg₂ _ ihFirst ihSecond
  | loop counter bound body ih => exact congrArg (bound :: ·) ih
  | store | fold | startSum | addProduct | storeSum => rfl

theorem bounds_nest (first : Nat) (shape : Shape) (body : Stmt)
    : (nest first shape body).bounds = shape ++ body.bounds := by
  induction shape generalizing first with
  | nil => rfl
  | cons extent inner ih => rw [nest, Stmt.bounds, ih, List.cons_append]

theorem bounds_fillFlat (count : Nat) (value : Expr) : (fillFlat count value).bounds = [count] :=
  rfl

theorem bounds_zipKernel (op : BinaryMap) (left right : Layout)
    : (zipKernel op left right).bounds = left.shape := by
  rw [zipKernel, bounds_nest, Stmt.bounds, List.append_nil]

theorem bounds_reduceKernel (op : Reduction) (axis : Nat) (source : Layout) (result : Shape)
    : (reduceKernel op axis source result).bounds = Shape.size result :: source.shape := by
  rw [reduceKernel, Stmt.bounds, bounds_nest, bounds_fillFlat, Stmt.bounds, List.append_nil]
  rfl

theorem bounds_permuteKernel (order : List Nat) (source : Layout) (result : Shape)
    : (permuteKernel order source result).bounds = source.shape := by
  rw [permuteKernel, bounds_nest, Stmt.bounds, List.append_nil]

theorem bounds_padKernel (padding : List (Nat × Nat)) (source : Layout) (result : Shape)
    : (padKernel padding source result).bounds = Shape.size result :: source.shape := by
  rw [padKernel, Stmt.bounds, bounds_nest, bounds_fillFlat, Stmt.bounds, List.append_nil]
  rfl

theorem bounds_matmulKernel {left right : Layout} {rows inner columns : Nat}
    (leftShape : left.shape = [rows, inner]) (rightShape : right.shape = [inner, columns])
    : (matmulKernel left right).bounds = [rows, columns, inner] := by
  rw [matmulKernel_eq leftShape rightShape, bounds_nest]
  rfl

end Kernel

namespace Task

variable {task : Task} {program : Stmt}

/-- A dense target has as many elements as its shape shows. -/
theorem Fits.physicalSize_eq (fits : task.Fits program) {shape : Shape}
    (dense : task.target.layout = .dense shape)
    : shape.Fits ∧ task.target.layout.physicalSize = shape.volume := by
  have shapeFits : shape.Fits := by
    have current := fits.target.current.fits
    rwa [dense] at current
  rw [dense, Layout.physicalSize_dense]
  exact ⟨shapeFits, shapeFits.size_eq⟩

/-- A loop does not count further than the target is large, or it goes along a dimension that is
folded, by cases on how the parts of the task fit.
-/
theorem Fits.bound_le_or_folded (fits : task.Fits program) {bound : Nat}
    (member : bound ∈ program.bounds)
    : bound ≤ task.target.layout.physicalSize ∨ ∃ fold ∈ task.folds, fold.extent = bound := by
  have of_dense {shape : Shape} (dense : task.target.layout = .dense shape) {extent : Nat}
      (inside : extent ∈ shape)
      : extent ≤ task.target.layout.physicalSize := by
    obtain ⟨shapeFits, size⟩ := fits.physicalSize_eq dense
    exact size ▸ shapeFits.le_volume inside
  have runs := fits.runs
  cases runs with
  | empty | constant | random => exact Or.inl (List.mem_singleton.mp member).le
  | unary op source target kept =>
      obtain rfl := List.mem_singleton.mp member
      exact Or.inl (congrArg Layout.physicalSize kept).ge
  | binary op left right target elementwise same dense =>
      rw [bounds_zipKernel] at member
      exact Or.inl (of_dense dense member)
  | @matmul left right target rows inner columns leftShape rightShape dense =>
      rw [bounds_matmulKernel leftShape rightShape] at member
      simp only [List.mem_cons, List.not_mem_nil, or_false] at member
      rcases member with rfl | rfl | rfl
      · exact Or.inl (of_dense dense (by simp))
      · exact Or.inl (of_dense dense (by simp))
      · refine Or.inr ⟨⟨left, 1⟩, List.mem_cons_self, ?_⟩
        rw [Fold.extent, leftShape]
        rfl
  | @reduce op source target axis inside dense =>
      rw [bounds_reduceKernel, Buffer.shape_of_dense dense] at member
      rcases List.mem_cons.mp member with rfl | member
      · rw [dense, Layout.physicalSize_dense]
        exact Or.inl (Nat.le_refl _)
      -- The loop goes along the dimension that is folded, or along one that the target keeps.
      have here : source.shape[axis]? = some (Fold.extent ⟨source, axis⟩) :=
        Fold.getElem?_axis inside
      obtain ⟨_, extent⟩ := List.getElem?_eq_some_iff.mp here
      rcases List.mem_cons.mp ((List.getElem_cons_eraseIdx_perm inside).mem_iff.mpr member)
        with rfl | kept
      · exact Or.inr ⟨⟨source, axis⟩, List.mem_cons_self, extent.symm⟩
      · exact Or.inl (of_dense dense kept)
  | @permute source target order accepted dense =>
      rw [bounds_permuteKernel] at member
      have moved := (Buffer.permutedShape_perm accepted).mem_iff.mpr member
      exact Or.inl (of_dense dense moved)
  | @pad source target padding length padded dense =>
      rw [bounds_padKernel] at member
      rcases List.mem_cons.mp member with rfl | member
      · rw [dense, Layout.physicalSize_dense]
        exact Or.inl (Nat.le_refl _)
      · obtain ⟨grown, found, longer⟩ := Shape.exists_padded length member
        have inside : grown ∈ target.shape := by
          rw [Shape.paddedShape_eq padded]
          exact found
        exact Or.inl (longer.trans (of_dense dense inside))

/-- A dimension that is folded belongs to a source, has a loop, and is as long in every source. -/
theorem Runs.folded (runs : task.Runs program) {fold : Fold} (member : fold ∈ task.folds)
    : fold.source ∈ task.sources
      ∧ fold.source.shape[fold.axis]? = some fold.extent
      ∧ fold.extent ∈ program.bounds
      ∧ ∀ other ∈ task.folds, other.extent = fold.extent := by
  cases runs with
  | empty | constant | random | unary | permute | pad => cases member
  | binary op left right target elementwise =>
      cases op with
      | matmul => exact absurd rfl elementwise
      | _ => cases member
  | @matmul left right target rows inner columns leftShape rightShape dense =>
      have leftExtent : Fold.extent ⟨left, 1⟩ = inner := by rw [Fold.extent, leftShape]; rfl
      have rightExtent : Fold.extent ⟨right, 0⟩ = inner := by rw [Fold.extent, rightShape]; rfl
      change fold ∈ [Fold.mk left 1, Fold.mk right 0] at member
      change fold.source ∈ [left, right] ∧ _ ∧ _
        ∧ ∀ other ∈ [Fold.mk left 1, Fold.mk right 0], other.extent = fold.extent
      rw [bounds_matmulKernel leftShape rightShape]
      simp only [List.mem_cons, List.not_mem_nil, or_false] at member
      rcases member with rfl | rfl
      · simp [leftExtent, rightExtent, leftShape]
      · simp [leftExtent, rightExtent, rightShape]
  | @reduce op source target axis inside dense =>
      obtain rfl : fold = ⟨source, axis⟩ := List.mem_singleton.mp member
      have here : source.shape[axis]? = some (Fold.extent ⟨source, axis⟩) :=
        Fold.getElem?_axis inside
      rw [bounds_reduceKernel]
      exact ⟨List.mem_cons_self, here, List.mem_cons_of_mem _ (List.mem_of_getElem? here),
        List.forall_mem_singleton.mpr rfl⟩

end Task

-----------------------------------------------------------------------------------------
-- Limits of units
-----------------------------------------------------------------------------------------

/-- On every desk that callers can come to, if the memory of the target and of each source of a task
can be had in one piece, the numbers in the heads of the loops are the bounds of the function that the
text is read as. A bound fits the type of its counter, or it is that of a dimension that is folded; so
all of them fit if and only if the folded dimensions do, which is the case where a source stores such
a dimension.
-/
theorem Desk.Reachable.limits_representable {desk : Desk} (reached : desk.Reachable)
    {buffer : Buffer} (held : buffer ∈ desk.buffers) {graph : Graph}
    (own : graph = desk.workspace.graph buffer.graph) {schedule : Schedule}
    (scheduled : graph.schedule buffer.node = .ok schedule) {task : Task}
    (member : task ∈ schedule)
    (memory
      : ∀ used ∈ task.target :: task.sources,
          graph.capacity used.node * used.dtype.bytes < 2 ^ 63)
    : ∃ unit routine,
        task.render = .ok unit
        ∧ Routine.read unit.source = some routine
        ∧ limits (tokens unit.source) = routine.body.bounds.map Nat.repr
        ∧ (∀ bound ∈ routine.body.bounds,
            bound < 2 ^ 63 ∨ ∃ fold ∈ task.folds, fold.extent = bound)
        ∧ (Representable (tokens unit.source) ↔ ∀ fold ∈ task.folds, fold.extent < 2 ^ 63)
        ∧ ((∃ fold ∈ task.folds, fold.IsStored) → Representable (tokens unit.source)) := by
  subst own
  have wf := reached.wellFormed
  obtain ⟨made, scheduled', contract⟩ := wf.workspace.schedule_ok (wf.buffers buffer held)
  obtain rfl := Except.ok.inj (scheduled.symm.trans scheduled')
  obtain ⟨program, fits⟩ := contract.fits (wf.workspace buffer.graph).2 member
  obtain ⟨target, sources⟩ := contract.capacities (wf.workspace buffer.graph).2 member
  have few (used : Buffer) (known : used ∈ task.target :: task.sources)
      : (desk.workspace.graph buffer.graph).capacity used.node < 2 ^ 63 := by
    have bytes : 0 < used.dtype.bytes := by cases used.dtype <;> decide
    exact (Nat.le_mul_of_pos_right _ bytes).trans_lt (memory used known)
  have known (bound : Nat) (inside : bound ∈ program.bounds)
      : bound < 2 ^ 63 ∨ ∃ fold ∈ task.folds, fold.extent = bound := by
    have most := few task.target List.mem_cons_self
    rw [← target] at most
    exact (fits.bound_le_or_folded inside).imp_left (·.trans_lt most)
  have fit : Representable (tokens (task.unit program).source)
      ↔ ∀ fold ∈ task.folds, fold.extent < 2 ^ 63 := by
    rw [representable_iff (limits_unit task program)]
    constructor
    · intro small fold inside
      exact small _ (fits.runs.folded inside).2.2.1
    · intro small bound inside
      rcases known bound inside with below | ⟨fold, folded, rfl⟩
      · exact below
      · exact small fold folded
  have same : (task.routine program).body.bounds = program.bounds := bounds_printed _ _
  refine ⟨_, _, fits.render_eq, fits.runs.read_unit, ?_⟩
  rw [same]
  refine ⟨limits_unit task program, known, fit, ?_⟩
  rintro ⟨fold, inside, stored⟩
  obtain ⟨listed, here, _, alike⟩ := fits.runs.folded inside
  have size := List.map_inj_left.mp sources fold.source listed
  have most := few fold.source (List.mem_cons_of_mem _ listed)
  rw [← size] at most
  refine fit.mpr fun other folded => ?_
  rw [alike other folded]
  exact ((fits.sources _ listed).current.le_physicalSize here stored).trans_lt most

/-- The sums of a sample fold two rows, which a counter can count. -/
theorem Desk.limits_representable_sample
    : ∃ unit, sums.render = .ok unit ∧ Representable (tokens unit.source) := by
  have held : sampleSums ∈ sample.buffers := by decide
  have scheduled
      : (sample.workspace.graph sampleSums.graph).schedule sampleSums.node
        = .ok [ones, negation 1, sums] := by
    rfl
  have listed : sums ∈ [ones, negation 1, sums] := by decide
  have memory
      : ∀ used ∈ sums.target :: sums.sources,
          (sample.workspace.graph sampleSums.graph).capacity used.node * used.dtype.bytes
            < 2 ^ 63 := by
    decide
  obtain ⟨unit, _, rendered, _, _, _, fit, _⟩ :=
    reachable_sample.limits_representable held rfl scheduled listed memory
  exact ⟨unit, rendered, fit.mpr (by decide)⟩

/-- One element. -/
def Desk.sampleOne : Buffer := ⟨0, 0, .float32, .dense [1]⟩

/-- The element, shown more often than a counter can count. -/
def Desk.sampleMany : Buffer :=
  ⟨0, 0, .float32, ⟨⟨[9223372036854775808], [9223372036854775808]⟩, [.dense [1]]⟩⟩

/-- The greatest of the elements. -/
def Desk.sampleGreatest : Buffer := ⟨0, 1, .float32, .dense []⟩

/-- The calls that lead to the greatest of many elements. -/
def Desk.sampleManyCalls : List BuildCall :=
  [.fill 0 .constant [1] (some (.value 0x3FF0000000000000)) .float32,
    .expand sampleOne [9223372036854775808], .reduce sampleMany .max 0]

/-- An element that is broadcast and folded. -/
def Desk.sampleFolded : Desk := sampleManyCalls.foldl call start

theorem Desk.reachable_sampleFolded : sampleFolded.Reachable := by
  have first : Reachable (start.call sampleManyCalls[0]) :=
    .step .start (.call _ _ (by decide) (by decide))
  have second := Reachable.step first (.call _ sampleManyCalls[1] (by decide) (by decide))
  exact .step second (.call _ sampleManyCalls[2] (by decide) (by decide))

/-- The task of the greatest of many elements. -/
def Desk.greatest : Task where
  operation := ⟨.reduce .max, [sampleMany.source], some (.axis 0)⟩
  target := sampleGreatest
  sources := [sampleMany]

/-- One element can be folded in more rounds than a counter can count. -/
theorem Desk.limits_greatest
    : sampleFolded.Reachable
      ∧ sampleGreatest ∈ sampleFolded.buffers
      ∧ ∃ schedule unit routine,
          (sampleFolded.workspace.graph 0).schedule 1 = .ok schedule
          ∧ greatest ∈ schedule
          ∧ (∀ used ∈ greatest.target :: greatest.sources,
              (sampleFolded.workspace.graph 0).capacity used.node * used.dtype.bytes < 2 ^ 63)
          ∧ greatest.render = .ok unit
          ∧ Routine.read unit.source = some routine
          ∧ routine.body.bounds = [1, 2 ^ 63]
          ∧ limits (tokens unit.source) = ["1", "9223372036854775808"]
          ∧ ¬Representable (tokens unit.source) := by
  let program := reduceKernel .max 0 sampleMany.layout []
  have bounds : program.bounds = [1, 2 ^ 63] := by decide
  have texts := limits_unit greatest program
  rw [bounds] at texts
  let one : Task := ⟨⟨.fill .constant, [], some (.value 0x3FF0000000000000)⟩, sampleOne, []⟩
  have runs : greatest.Runs program := .reduce .max sampleMany sampleGreatest (by decide) rfl
  refine ⟨reachable_sampleFolded, by decide, [one, greatest], greatest.unit program,
    greatest.routine program, rfl, List.mem_cons_of_mem _ List.mem_cons_self, by decide, rfl,
    runs.read_unit, (bounds_printed _ _).trans bounds, ?_, ?_⟩
  · rw [texts]
    decide
  · rw [representable_iff texts]
    decide

end LazyTensor
