import LazyTensor.Proofs.Kernel.Calls
import LazyTensor.Proofs.Kernel.Meaning
import LazyTensor.Proofs.Layout.History

/-! Maps of two operands that are broadcast each in its own way. What a view shows of its storage
is the stored array repeated by the factors of the view. The text of the kernel of such a map goes
through the indices of the shape and leaves at each the function of what the two repeated arrays have
there, whichever dimensions are broadcast and whatever stood in the output before.
-/

namespace LazyTensor

open Kernel

namespace LogicalArray

/-- Cells in row-major order. -/
def ofCells (shape : Shape) (cells : Array Pattern) : LogicalArray where
  shape := shape
  value index := cells.getD (shape.position index) 0

/-- An array repeated along each dimension as often as a factor says. -/
def tile (array : LogicalArray) (factors : List Nat) : LogicalArray where
  shape := array.shape.zipWith (· * ·) factors
  value index := array.value (index.zipWith (· % ·) array.shape)

end LogicalArray

/-- The stored array of a layout, repeated by its factors. -/
def Layout.tiled (layout : Layout) (cells : Array Pattern) : LogicalArray :=
  (LogicalArray.ofCells layout.physicalShape cells).tile layout.factors

/-- Cells of the right number show the stored array repeated by the factors. -/
theorem Layout.WellFormed.shows_tiled {layout : Layout} (wf : layout.WellFormed)
    {cells : Array Pattern} (size : cells.size = layout.physicalSize)
    : layout.Shows cells (layout.tiled cells) where
  shape := by
    have extents : layout.shape = layout.factors.zipWith (· * ·) layout.physicalShape :=
      wf.current.shape_eq
    rw [extents, List.zipWith_comm]
    exact congrArg (List.zipWith · _ _) (funext₂ fun stored factor => Nat.mul_comm stored factor)
  value := by
    intro index held
    have below : layout.place index < cells.size := size ▸ wf.current.place_lt held
    change cells[layout.place index]? = some (cells.getD (layout.place index) 0)
    rw [Array.getElem?_eq_getElem below, Array.getD_eq_getD_getElem?,
      Array.getElem?_eq_getElem below, Option.getD_some]

/-- The task of a map of two operands is lowered to its nest of loops. -/
theorem Task.lower_binary {task : Task} {op : BinaryMap} (elementwise : op ≠ .matmul)
    (kind : task.kind = .binary op) {left right : Buffer} (sources : task.sources = [left, right])
    (types : ∀ source ∈ task.sources, source.dtype = task.target.dtype)
    : task.lower = .ok (zipKernel op left.layout right.layout) := by
  have mixed : task.mixedSource? = none := by
    refine List.find?_eq_none.mpr ?_
    intro source member
    simp [types source member]
  have arity : task.sources.length = task.kind.arity := by
    rw [sources, kind]
    rfl
  rw [lower, if_pos arity, mixed, kind, sources]
  cases op with
  | matmul => exact absurd rfl elementwise
  | _ => rfl

theorem constants_zipKernel (op : BinaryMap) (left right : Layout)
    : (zipKernel op left right).constants = [] := by
  rw [zipKernel, constants_nest]
  rfl

/-- Over arrays that can be stored, a map of two operands has a meaning in words. -/
theorem defined_zipKernel (op : BinaryMap) {left right : Layout} (leftWf : left.WellFormed)
    (rightWf : right.WellFormed) (same : right.shape = left.shape)
    {leftCells rightCells out : Array Pattern} (leftSize : leftCells.size = left.physicalSize)
    (rightSize : rightCells.size = right.physicalSize) (outSize : out.size = left.shape.size)
    (few : ∀ cells ∈ [out, leftCells, rightCells], cells.size < 2 ^ 63)
    : (zipKernel op left right).Defined [leftCells, rightCells] out.size (fun _ => 0) := by
  have safe := safe_zipKernel op leftWf rightWf same
  have fits : left.shape.Fits := leftWf.current.fits
  simp only [List.forall_mem_cons] at few
  obtain ⟨fewOut, fewLeft, fewRight, _⟩ := few
  rw [← outSize, ← leftSize, ← rightSize] at safe
  refine safe.defined ?_ (counted_zipKernel op ?_ ?_ ?_)
  · rw [bounds_zipKernel]
    intro extent member
    have most := fits.le_volume member
    rw [← fits.size_eq, ← outSize] at most
    exact most.trans_lt fewOut
  · exact fun stride member => (outSize ▸ fits.stride_le member).trans_lt fewOut
  · exact fun stride member => (leftSize ▸ leftWf.stride_le member).trans_lt fewLeft
  · exact fun stride member => (rightSize ▸ rightWf.stride_le member).trans_lt fewRight

/-- A map of two operands of one type and one shape is rendered to a text that is read as a function.
Over any storages of as many elements as the operands' views have behind them and any output of as
many elements as the shape has, the function leaves at the row-major position of each index what the
map makes of the elements that the repeated arrays have there. In words it does the same, if the
arrays can be stored.
-/
theorem Task.render_binary_tiles {task : Task} {op : BinaryMap} (elementwise : op ≠ .matmul)
    (kind : task.kind = .binary op) {left right : Buffer} (sources : task.sources = [left, right])
    (types : ∀ source ∈ task.sources, source.dtype = task.target.dtype)
    (leftWf : left.layout.WellFormed) (rightWf : right.layout.WellFormed)
    (same : right.shape = left.shape)
    : ∃ unit routine,
        task.render = .ok unit
        ∧ Routine.read unit.source = some routine
        ∧ ∀ (arith : Arithmetic) (leftCells rightCells out : Array Pattern),
            leftCells.size = left.layout.physicalSize
            → rightCells.size = right.layout.physicalSize
            → out.size = left.shape.size
            → let done := routine.apply arith out [leftCells, rightCells]
              ((∀ cells ∈ [out, leftCells, rightCells], cells.size < 2 ^ 63) →
                routine.exec arith out [leftCells, rightCells] = some done)
              ∧ done.size = out.size
              ∧ ∀ index,
                  left.shape.Holds index →
                    done[left.shape.position index]?
                      = some
                          (arith.binary task.target.dtype op
                            ((left.layout.tiled leftCells).value index)
                            ((right.layout.tiled rightCells).value index)) := by
  let program := zipKernel op left.layout right.layout
  have two : task.sources.length = 2 := by rw [sources]; rfl
  have reads : Routine.read (task.unit program).source = some (task.routine program) := by
    refine Task.read_unit ?_ (Stmt.legible_zipKernel elementwise _ _ _)
    exact Stmt.scoped_zipKernel op _ _ task.output_declared
      (Task.source_declared (two ▸ Nat.two_pos)) (Task.source_declared (two ▸ Nat.one_lt_two))
  refine ⟨task.unit program, task.routine program, ?_, reads, ?_⟩
  · rw [render, lower_binary elementwise kind sources types]
    rfl
  · intro arith leftCells rightCells out leftSize rightSize outSize
    have known
        : ∀ bits ∈ program.constants,
            arith.constant task.target.dtype (task.target.dtype.narrowed bits)
              = arith.constant task.target.dtype bits := by
      rw [constants_zipKernel]
      exact List.forall_mem_nil _
    refine ⟨fun few => ?_, size_apply _ out, ?_⟩
    · exact Routine.exec_eq_some rfl few known
        (defined_zipKernel op leftWf rightWf same leftSize rightSize outSize few)
    · intro index held
      rw [Task.apply_routine known]
      exact zipKernel_shows op leftWf rightWf same (leftWf.shows_tiled leftSize)
        (rightWf.shows_tiled rightSize) outSize held

/-- A column of two elements broadcast along its rows. -/
def Task.sampleColumn : Buffer := ⟨0, 0, .float32, (Layout.dense [2, 1]).afterAll [.expand [2, 2]]⟩

/-- The same elements as a row broadcast along its columns. -/
def Task.sampleRow : Buffer :=
  ⟨0, 0, .float32, (Layout.dense [2, 1]).afterAll [.reshape [1, 2], .expand [2, 2]]⟩

/-- The differences of any two of the elements. -/
def Task.sampleDifferences : Task where
  operation := ⟨.binary .sub, [sampleColumn.source, sampleRow.source], none⟩
  target := ⟨0, 1, .float32, .dense [2, 2]⟩
  sources := [sampleColumn, sampleRow]

/-- One storage is read twice, broadcast along another dimension each time: the first row takes the
elements from the first one and the second row from the second one.
-/
theorem Task.render_binary_tiles_sample
    : ∃ unit routine,
        sampleDifferences.render = .ok unit
        ∧ Routine.read unit.source = some routine
        ∧ ∀ (arith : Arithmetic) (first second : Pattern),
            ∃ done,
              routine.exec arith #[7, 7, 7, 7] [#[first, second], #[first, second]] = some done
              ∧ done[1]? = some (arith.binary .float32 .sub first second)
              ∧ done[2]? = some (arith.binary .float32 .sub second first) := by
  have stored : (Layout.dense [2, 1]).WellFormed := Layout.dense_wellFormed (by decide)
  have elementwise : BinaryMap.sub ≠ .matmul := by decide
  have kind : sampleDifferences.kind = .binary .sub := rfl
  have sources : sampleDifferences.sources = [sampleColumn, sampleRow] := rfl
  obtain ⟨unit, routine, rendered, reads, leaves⟩ :=
    render_binary_tiles elementwise kind sources (by decide) (stored.afterAll _).1
      (stored.afterAll _).1 (by decide)
  refine ⟨unit, routine, rendered, reads, ?_⟩
  intro arith first second
  obtain ⟨words, _, elements⟩ :=
    leaves arith #[first, second] #[first, second] #[7, 7, 7, 7] rfl rfl rfl
  have above : Shape.Holds [2, 2] [0, 1] := by simp
  have below : Shape.Holds [2, 2] [1, 0] := by simp
  exact ⟨_, words (by simp), elements [0, 1] above, elements [1, 0] below⟩

end LazyTensor
