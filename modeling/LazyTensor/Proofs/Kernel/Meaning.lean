import LazyTensor.Proofs.Kernel.Lowering
import LazyTensor.Proofs.Kernel.Printing
import LazyTensor.Proofs.Kernel.Writes
import LazyTensor.Proofs.Reference.Result

/-! What kernels compute. Over sources whose storage shows given arrays, the kernel of a task
leaves an output that shows the result of the task's operation on these arrays.
-/

namespace LazyTensor

open Kernel

/-- The stored elements show an array under a layout. -/
structure Layout.Shows (layout : Layout) (cells : Array Pattern) (array : LogicalArray) : Prop
    where
  shape : array.shape = layout.shape
  value
    : ∀ index, layout.shape.Holds index → cells[layout.place index]? = some (array.value index)

/-- Constants are rounded to the element type and draws are those of the generator. -/
structure Arithmetic.Standard (arith : Arithmetic) : Prop where
  constant : arith.constant = DType.ofBinary64
  draw : arith.draw = Random.uniform

theorem Arithmetic.ieee_standard : ieee.Standard := ⟨rfl, rfl⟩

/-- Rounded constants are the same as they are printed. -/
theorem Arithmetic.Standard.constant_narrowed {arith : Arithmetic} (standard : arith.Standard)
    (dtype : DType) (bits : UInt64)
    : arith.constant dtype (dtype.narrowed bits) = arith.constant dtype bits := by
  rw [standard.constant, dtype.ofBinary64_narrowed]

theorem DType.ofBinary64_zero (dtype : DType) : dtype.ofBinary64 Spelling.zero = 0 := by
  cases dtype <;> decide

namespace Kernel

section

variable {arith : Arithmetic} {dtype : DType} {env : Counters} {memory : Memory}

/-- A read gives the element that the source shows. -/
theorem eval_read {cells : List (Array Pattern)} {source place : Nat} {stored : Array Pattern}
    {value : Pattern} (found : cells[source]? = some stored) (shown : stored[place]? = some value)
    {address : Address} (same : address.eval env = place)
    : (Expr.read source address).eval arith dtype cells env = value := by
  rw [Expr.eval, same, List.getD_eq_getElem?_getD, found, Option.getD_some,
    Array.getD_eq_getD_getElem?, shown, Option.getD_some]

theorem map_const_of_lt {out : Array Pattern} {place : Nat} (below : place < out.size)
    (value : Pattern)
    : (out[place]?.map fun _ => value) = some value := by
  rw [Array.getElem?_eq_getElem below]
  rfl

/-- A map of stored elements shows the map of the array, since the output is stored like the
source.
-/
theorem mapKernel_shows (op : UnaryMap) {source : Layout} (wf : source.WellFormed)
    {cells : Array Pattern} {array : LogicalArray} (shown : source.Shows cells array)
    (size : memory.out.size = source.physicalSize) {index : Index}
    (held : source.shape.Holds index)
    : ((mapKernel op source).run arith dtype [cells] env memory).out[source.place index]?
      = some (array.mapped arith dtype op index) := by
  have below : source.place index < source.physicalSize := wf.current.place_lt held
  have read
      : (Expr.read 0 flatAddress).eval arith dtype [cells] (env.set 0 (source.place index))
        = array.value index :=
    eval_read rfl (shown.value index held) (by simp [Counters.set])
  rw [mapKernel, getElem?_fillFlat below, map_const_of_lt (size ▸ below), Expr.eval, read]
  rfl

/-- A source of a nest is read at the index that the counters form. -/
theorem eval_read_strided {cells : List (Array Pattern)} {source : Nat} {stored : Array Pattern}
    (found : cells[source]? = some stored) {layout : Layout} (wf : layout.WellFormed)
    {array : LogicalArray} (shown : layout.Shows stored array) (first : Nat) {index : Index}
    (held : layout.shape.Holds index)
    : (Expr.read source (strided (counters first layout.rank) layout.strides)).eval arith dtype
          cells (env.assign first index)
        = array.value index :=
  eval_read found (shown.value index held) (eval_strided_view wf env first held)

/-- A map of two arrays shows the map of their elements. -/
theorem zipKernel_shows (op : BinaryMap) {left right : Layout} (leftWf : left.WellFormed)
    (rightWf : right.WellFormed) (same : right.shape = left.shape)
    {leftCells rightCells : Array Pattern} {leftArray rightArray : LogicalArray}
    (leftShown : left.Shows leftCells leftArray) (rightShown : right.Shows rightCells rightArray)
    (size : memory.out.size = Shape.size left.shape) {index : Index}
    (held : left.shape.Holds index)
    : ((zipKernel op left right).run arith dtype [leftCells, rightCells] env memory).out[
          left.shape.position index]?
        = some (leftArray.zipped arith dtype op rightArray index) := by
  have fits : left.shape.Fits := leftWf.current.fits
  have rank : right.rank = left.rank := congrArg List.length same
  have leads (index : Index) (held : left.shape.Holds index)
      : (strided (counters 0 left.rank) (Shape.strides left.shape)).eval (env.assign 0 index)
        = left.shape.position index := by
    rw [eval_strided_dense fits, Layout.rank, ← held.length_eq, Counters.map_assign]
  have below : left.shape.position index < memory.out.size := by
    rw [size, fits.size_eq]
    exact held.position_lt
  rw [zipKernel]
  refine (getElem?_nest_of_single (writesAt_store _ _) leads held
    fun other inside equal => inside.eq_of_position_eq held equal).trans ?_
  rw [map_const_of_lt below, Expr.eval, eval_read_strided rfl leftWf leftShown 0 held, ← rank,
    eval_read_strided rfl rightWf rightShown 0 (same ▸ held)]
  rfl

/-- A fold along a dimension leaves at an index the elements that lead there, which are those with any
coordinate along the dimension, taken in ascending order into the number that the fold starts from.
-/
theorem reduceKernel_leaves (op : Reduction) {axis : Nat} {source : Layout}
    (wf : source.WellFormed) (inside : axis < source.rank) {cells : Array Pattern}
    {array : LogicalArray} (shown : source.Shows cells array) {result : Shape}
    (dropped : result = source.shape.dropAxis axis) (size : memory.out.size = Shape.size result)
    {index : Index} (held : result.Holds index)
    : ((reduceKernel op axis source result).run arith dtype [cells] env memory).out[
          result.position index]?
        = some
            ((List.range (source.shape.getD axis 0)).foldl
              (fun total coordinate =>
                arith.binary dtype op.step total (array.value (index.insertIdx axis coordinate)))
              (arith.constant dtype op.identity)) := by
  subst dropped
  have fits : (source.shape.dropAxis axis).Fits :=
    wf.current.fits.sublist (List.eraseIdx_sublist _ axis)
  have below := held.position_lt
  rw [← fits.size_eq] at below
  have leads (other : Index) (held : source.shape.Holds other)
      : (strided ((counters 1 source.rank).eraseIdx axis)
            (Shape.strides (source.shape.dropAxis axis))).eval (env.assign 1 other)
          = (source.shape.dropAxis axis).position (other.eraseIdx axis) :=
    eval_dropped fits env 1 axis held
  -- The indices that add to one place, in the order of the loops.
  have own
      : source.shape.indices.filter
            (fun other =>
              (source.shape.dropAxis axis).position (other.eraseIdx axis)
                = (source.shape.dropAxis axis).position index)
          = (List.range (source.shape.getD axis 0)).map fun coordinate =>
              index.insertIdx axis coordinate := by
    rw [← Shape.filter_eraseIdx held inside]
    refine List.filter_congr ?_
    intro other member
    have otherHeld := (Shape.mem_indices.mp member).eraseIdx axis
    exact decide_eq_decide.mpr
      ⟨otherHeld.eq_of_position_eq held, fun same => congrArg _ same⟩
  rw [reduceKernel, Stmt.run, getElem?_nest (writesAt_fold _ _ _) _ leads, own,
    getElem?_fillFlat below, map_const_of_lt (size ▸ below), Option.map_some, List.foldl_map,
    Expr.eval]
  refine congrArg some (List.foldl_ext _ _ _ ?_)
  intro total coordinate member
  rw [eval_read_strided rfl wf shown 1 (held.insertIdx inside (List.mem_range.mp member))]

/-- A fold along a dimension shows the fold of the array. -/
theorem reduceKernel_shows (standard : arith.Standard) (op : Reduction) {axis : Nat} {source : Layout}
    (wf : source.WellFormed) (inside : axis < source.rank) {cells : Array Pattern}
    {array : LogicalArray} (shown : source.Shows cells array) {result : Shape}
    (dropped : result = source.shape.dropAxis axis) (size : memory.out.size = Shape.size result)
    {index : Index} (held : result.Holds index)
    : ((reduceKernel op axis source result).run arith dtype [cells] env memory).out[
          result.position index]?
        = some (array.folded arith dtype op axis index) := by
  rw [reduceKernel_leaves op wf inside shown dropped size held, standard.constant,
    LogicalArray.folded, shown.shape]

/-- An exchange of dimensions shows the array with its dimensions exchanged. -/
theorem permuteKernel_shows {order : List Nat} {source : Layout} (wf : source.WellFormed)
    (accepted : isPermutation order source.rank = true) {cells : Array Pattern}
    {array : LogicalArray} (shown : source.Shows cells array) {result : Shape}
    (permuted : result = Buffer.permutedShape source.shape order)
    (size : memory.out.size = Shape.size result) {index : Index} (held : result.Holds index)
    : ((permuteKernel order source result).run arith dtype [cells] env memory).out[
          result.position index]?
        = some (array.permuted order index) := by
  subst permuted
  have fits : source.shape.Fits := wf.current.fits
  have below := held.position_lt
  rw [← (fits.perm (Buffer.permutedShape_perm accepted).symm).size_eq, ← size] at below
  obtain ⟨inner, same⟩ := Shape.Holds.unpermute accepted held
  -- No other index is written to this place, since positions and orders are injective.
  have single (other : Index) (otherHeld : source.shape.Holds other)
      (equal
        : (Buffer.permutedShape source.shape order).position (Buffer.permutedShape other order)
          = (Buffer.permutedShape source.shape order).position
              (Buffer.permutedShape (Shape.unpermute order index) order))
      : other = Shape.unpermute order index := by
    have length : other.length = source.shape.length := otherHeld.length_eq
    have own : isPermutation order other.length = true := by
      rw [length]
      exact accepted
    refine Shape.permutedShape_injective own (length.trans inner.length_eq.symm) ?_
    exact (otherHeld.permute accepted).eq_of_position_eq (inner.permute accepted) equal
  have target
      : (Buffer.permutedShape source.shape order).position index
        = (Buffer.permutedShape source.shape order).position
            (Buffer.permutedShape (Shape.unpermute order index) order) :=
    congrArg _ same.symm
  rw [target] at below ⊢
  rw [permuteKernel]
  refine (getElem?_nest_of_single (writesAt_store _ _)
    (fun index held => eval_permuted fits accepted env 0 held) inner single).trans ?_
  rw [map_const_of_lt below, eval_read_strided rfl wf shown 0 inner]
  rfl

/-- Padding shows the padded array: an element where one is moved to the index, else the zero
that was written first.
-/
theorem padKernel_shows (standard : arith.Standard) {padding : List (Nat × Nat)} {source : Layout}
    (wf : source.WellFormed) (length : padding.length = source.rank) {cells : Array Pattern}
    {array : LogicalArray} (shown : source.Shows cells array) {result : Shape}
    (padded : Buffer.paddedShape source.shape padding = some result) (fits : result.Fits)
    (size : memory.out.size = Shape.size result) {index : Index} (held : result.Holds index)
    : ((padKernel padding source result).run arith dtype [cells] env memory).out[
          result.position index]?
        = some (array.padded padding index) := by
  have below := held.position_lt
  rw [← fits.size_eq] at below
  have rank : index.length = source.shape.length := by
    rw [held.length_eq, Shape.paddedShape_eq padded, List.length_zipWith, length]
    exact Nat.min_self _
  have moved (other : Index) (held : source.shape.Holds other)
      : result.Holds (Shape.shift padding other) := by
    rw [Shape.paddedShape_eq padded]
    exact held.shift length
  have leads (other : Index) (held : source.shape.Holds other)
      : (shifted (counters 1 source.rank) padding (Shape.strides result)).eval
            (env.assign 1 other)
          = result.position (Shape.shift padding other) :=
    eval_padded fits env 1 held padding
  have zeros
      : ((fillFlat (Shape.size result) (.constant Spelling.zero)).run arith dtype [cells] env
            memory).out[result.position index]?
          = some 0 := by
    rw [getElem?_fillFlat below, map_const_of_lt (size ▸ below), Expr.eval, standard.constant,
      DType.ofBinary64_zero]
  have behind (inner : Index)
      : Shape.unshift source.shape padding index = some inner
        ↔ source.shape.Holds inner ∧ Shape.shift padding inner = index :=
    Shape.unshift_eq_some_iff length rank
  have found (other : Index) (otherHeld : source.shape.Holds other)
      (same : result.position (Shape.shift padding other) = result.position index)
      : Shape.unshift source.shape padding index = some other :=
    (behind other).mpr ⟨otherHeld, (moved other otherHeld).eq_of_position_eq held same⟩
  change ((Stmt.seq _ (nest 1 source.shape _)).run arith dtype [cells] env memory).out[_]? = _
  rw [Stmt.run, LogicalArray.padded, shown.shape]
  -- Either nothing is moved here and the zero stays, or exactly one element is.
  cases inside : Shape.unshift source.shape padding index with
  | none =>
      refine (getElem?_nest_of_none (writesAt_store _ _) leads ?_).trans zeros
      intro other otherHeld same
      rw [found other otherHeld same] at inside
      cases inside
  | some inner =>
      obtain ⟨innerHeld, rfl⟩ := (behind inner).mp inside
      refine (getElem?_nest_of_single (writesAt_store _ _) leads innerHeld ?_).trans ?_
      · intro other otherHeld same
        rw [found other otherHeld same] at inside
        exact Option.some.inj inside
      · rw [zeros, Option.map_some, eval_read_strided rfl wf shown 1 innerHeld]

/-- A product of matrices shows the products of rows and columns. -/
theorem matmulKernel_shows (standard : arith.Standard) {left right : Layout} (leftWf : left.WellFormed)
    (rightWf : right.WellFormed) {rows inner columns : Nat}
    (leftShape : left.shape = [rows, inner]) (rightShape : right.shape = [inner, columns])
    {leftCells rightCells : Array Pattern} {leftArray rightArray : LogicalArray}
    (leftShown : left.Shows leftCells leftArray) (rightShown : right.Shows rightCells rightArray)
    (fits : Shape.Fits [rows, columns]) (size : memory.out.size = Shape.size [rows, columns])
    {row column : Nat} (held : Shape.Holds [rows, columns] [row, column])
    : ((matmulKernel left right).run arith dtype [leftCells, rightCells] env memory).out[
          Shape.position [rows, columns] [row, column]]?
        = some (leftArray.multiplied arith dtype rightArray row column) := by
  have below := held.position_lt
  rw [← fits.size_eq, ← size] at below
  obtain ⟨rowBelow, columnBelow⟩ : row < rows ∧ column < columns := by simpa using held
  have leads (index : Index) (held : Shape.Holds [rows, columns] index)
      : (strided [0, 1] [columns, 1]).eval (env.assign 0 index)
        = Shape.position [rows, columns] index := by
    obtain ⟨row, column, rfl, _⟩ := held.exists_pair
    exact eval_cell env rows columns row column
  rw [matmulKernel_eq leftShape rightShape]
  refine (getElem?_nest_of_single (writesAt_cellProduct left right inner columns) leads held
    fun other otherHeld same => otherHeld.eq_of_position_eq held same).trans ?_
  have taken (total : Pattern) (place : Nat) (member : place ∈ List.range inner)
      : arith.binary dtype .add total
          (arith.binary dtype .mul
            ((Expr.read 0 (strided [0, 2] left.strides)).eval arith dtype
              [leftCells, rightCells] ((env.assign 0 [row, column]).set 2 place))
            ((Expr.read 1 (strided [2, 1] right.strides)).eval arith dtype
              [leftCells, rightCells] ((env.assign 0 [row, column]).set 2 place)))
        = arith.binary dtype .add total
            (arith.binary dtype .mul (leftArray.value [row, place])
              (rightArray.value [place, column])) := by
    have placeBelow := List.mem_range.mp member
    have leftHeld : left.shape.Holds [row, place] := by simp [leftShape, rowBelow, placeBelow]
    have rightHeld : right.shape.Holds [place, column] := by
      simp [rightShape, columnBelow, placeBelow]
    rw [eval_read rfl (leftShown.value _ leftHeld) (eval_leftFactor leftWf env column leftHeld),
      eval_read rfl (rightShown.value _ rightHeld) (eval_rightFactor rightWf env row rightHeld)]
  rw [map_const_of_lt below, standard.constant, DType.ofBinary64_zero, LogicalArray.multiplied,
    leftShown.shape, leftShape]
  exact congrArg some (List.foldl_ext _ _ _ taken)

end

end Kernel

/-- In a dense layout stored elements show an array if they are at the positions of its indices. -/
theorem Layout.shows_dense {layout : Layout} {shape : Shape} (dense : layout = .dense shape)
    {cells : Array Pattern} {value : Index → Pattern}
    (stands
      : ∀ index, shape.Holds index → cells[shape.position index]? = some (value index))
    : layout.Shows cells ⟨layout.shape, value⟩ := by
  subst dense
  refine ⟨rfl, ?_⟩
  intro index held
  have place : (dense shape).place index = shape.position index := place_dense held
  rw [place]
  exact stands index held

/-- A flat loop shows the values that it writes at the positions of all indices. -/
theorem Layout.shows_fillFlat {layout : Layout} (wf : layout.WellFormed)
    (dense : layout = .dense layout.shape) {arith : Arithmetic} {dtype : DType} {env : Counters}
    {memory : Memory} (size : memory.out.size = layout.physicalSize) {expr : Expr}
    {value : Index → Pattern}
    (gives
      : ∀ index, expr.eval arith dtype [] (env.set 0 (layout.shape.position index)) = value index)
    : layout.Shows
        ((fillFlat layout.physicalSize expr).run arith dtype [] env memory).out
        ⟨layout.shape, value⟩ := by
  refine shows_dense dense ?_
  intro index held
  have below : layout.shape.position index < layout.physicalSize := by
    rw [congrArg physicalSize dense, physicalSize_dense]
    exact held.position_lt.trans_eq wf.current.fits.size_eq.symm
  rw [getElem?_fillFlat below, map_const_of_lt (size ▸ below), gives]

/-- The kernel of a task that fits leaves an output that shows the result of the operation, by
cases on how the parts of the task fit.
-/
theorem Task.Fits.apply_shows {arith : Arithmetic} (standard : arith.Standard) {task : Task}
    {program : Stmt} (fits : task.Fits program) {cells : Buffer → Array Pattern}
    {array : Buffer → LogicalArray}
    (shown : ∀ source ∈ task.sources, source.layout.Shows (cells source) (array source))
    {out : Array Pattern} (size : out.size = task.target.layout.physicalSize)
    : task.target.layout.Shows
        (program.apply arith task.target.dtype out (task.sources.map cells))
        ⟨task.target.shape,
          task.operation.result arith task.target.dtype task.target.shape
            (task.sources.map array)⟩ := by
  obtain ⟨runs, _, targetWf, sourcesWf⟩ := fits
  rw [Stmt.apply_eq]
  cases runs with
  | empty target dense =>
      refine Layout.shows_fillFlat targetWf dense size ?_
      intro index
      rw [Expr.eval, standard.constant, DType.ofBinary64_zero]
      rfl
  | constant target bits dense =>
      refine Layout.shows_fillFlat targetWf dense size ?_
      intro index
      rw [Expr.eval, standard.constant]
      rfl
  | random target seed dense =>
      refine Layout.shows_fillFlat targetWf dense size ?_
      intro index
      rw [Expr.eval, standard.draw]
      rfl
  | unary op source target kept =>
      refine ⟨rfl, ?_⟩
      change ∀ index, target.layout.shape.Holds index → _
      rw [kept] at size ⊢
      intro index held
      exact mapKernel_shows op (sourcesWf source (by simp)) (shown source (by simp)) size held
  | binary op left right target elementwise same dense =>
      refine Layout.shows_dense dense ?_
      intro index held
      rw [congrArg Layout.physicalSize dense, Layout.physicalSize_dense] at size
      have zipped
          : ((zipKernel op left.layout right.layout).run arith target.dtype
                [cells left, cells right] (fun _ => 0) ⟨out, 0⟩).out[left.shape.position index]?
              = some ((array left).zipped arith target.dtype op (array right) index) :=
        zipKernel_shows op (sourcesWf left (by simp)) (sourcesWf right (by simp)) same
          (shown left (by simp)) (shown right (by simp)) size held
      cases op with
      | matmul => exact absurd rfl elementwise
      | _ => exact zipped
  | @matmul left right target rows inner columns leftShape rightShape dense =>
      have fits : target.shape.Fits := targetWf.current.fits
      rw [Buffer.shape_of_dense dense] at fits
      refine Layout.shows_dense dense ?_
      intro index held
      obtain ⟨row, column, rfl, _⟩ := held.exists_pair
      rw [congrArg Layout.physicalSize dense, Layout.physicalSize_dense] at size
      exact matmulKernel_shows standard (sourcesWf left (by simp)) (sourcesWf right (by simp))
        leftShape rightShape (shown left (by simp)) (shown right (by simp)) fits size held
  | @reduce op source target axis inside dense =>
      have shape := Buffer.shape_of_dense dense
      rw [← shape] at dense
      refine Layout.shows_dense dense ?_
      intro index held
      rw [congrArg Layout.physicalSize dense, Layout.physicalSize_dense] at size
      exact reduceKernel_shows standard op (sourcesWf source (by simp)) inside
        (shown source (by simp)) shape size held
  | @permute source target order accepted dense =>
      have shape := Buffer.shape_of_dense dense
      rw [← shape] at dense
      refine Layout.shows_dense dense ?_
      intro index held
      rw [congrArg Layout.physicalSize dense, Layout.physicalSize_dense] at size
      exact permuteKernel_shows (sourcesWf source (by simp)) accepted (shown source (by simp))
        shape size held
  | @pad source target padding length padded dense =>
      refine Layout.shows_dense dense ?_
      intro index held
      rw [congrArg Layout.physicalSize dense, Layout.physicalSize_dense] at size
      exact padKernel_shows standard (sourcesWf source (by simp)) length (shown source (by simp))
        padded targetWf.current.fits size held

end LazyTensor
