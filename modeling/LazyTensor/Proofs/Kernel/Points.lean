import LazyTensor.Kernel.Evaluation
import LazyTensor.Kernel.Lowering
import LazyTensor.Proofs.Layout.Place
import LazyTensor.Proofs.Shape.Rearrangement

/-! Iteration points of kernels. Running a kernel runs its innermost statements one after the
other, each with the counters of its loops; nests of loops go through the indices of their
shape, and an address made of counters and strides is the sum of their products.
-/

namespace LazyTensor.Kernel

/-- An innermost statement and the counters with which it runs. -/
structure Point where
  stmt : Stmt
  env : Counters

/-- Rounds of a loop are steps through a range. -/
theorem fold_eq_foldl {α : Type} (step : Nat → α → α) (rounds : Nat) (start : α)
    : rounds.fold (fun round _ state => step round state) start
      = (List.range rounds).foldl (fun state round => step round state) start := by
  induction rounds with
  | zero => rfl
  | succ rounds ih =>
      rw [Nat.fold_succ, List.range_succ, List.foldl_append, ih]
      rfl

namespace Stmt

/-- The points of a statement, in the order in which they run. -/
def points : Stmt → Counters → List Point
  | skip, _ => []
  | seq first second, env => first.points env ++ second.points env
  | loop counter bound body, env =>
      (List.range bound).flatMap fun value => body.points (env.set counter value)
  | other, env => [⟨other, env⟩]

/-- Running a statement runs its points in order, by induction on the statement. -/
theorem run_eq_foldl (arith : Arithmetic) (dtype : DType) (sources : List (Array Pattern))
    (body : Stmt) (env : Counters) (memory : Memory)
    : body.run arith dtype sources env memory
      = (body.points env).foldl
          (fun memory point => point.stmt.run arith dtype sources point.env memory) memory := by
  induction body generalizing env memory with
  | skip => rfl
  | seq first second ihFirst ihSecond =>
      rw [run, points, List.foldl_append, ← ihFirst, ← ihSecond]
  | loop counter bound body ih =>
      rw [run, points, fold_eq_foldl
        (fun value memory => body.run arith dtype sources (env.set counter value) memory),
        List.foldl_flatMap]
      simp only [ih]
  | _ => rfl

end Stmt

-----------------------------------------------------------------------------------------
-- What a point reads and writes
-----------------------------------------------------------------------------------------

/-- The sources that an expression reads, with the places in them. -/
def Expr.reads (env : Counters) : Expr → List (Nat × Nat)
  | constant _ | draw .. => []
  | read source address => [(source, address.eval env)]
  | unary _ operand => operand.reads env
  | binary _ left right => left.reads env ++ right.reads env

namespace Point

/-- The places of the output that a point writes. -/
def writes (point : Point) : List Nat :=
  match point.stmt with
  | .store address _ | .fold _ address _ | .storeSum address => [address.eval point.env]
  | _ => []

/-- The sources that a point reads, with the places in them. -/
def reads (point : Point) : List (Nat × Nat) :=
  match point.stmt with
  | .store _ value | .fold _ _ value | .startSum value => value.reads point.env
  | .addProduct left right => left.reads point.env ++ right.reads point.env
  | _ => []

end Point

-----------------------------------------------------------------------------------------
-- Nests of loops
-----------------------------------------------------------------------------------------

/-- The counters from `first` on set to the coordinates of an index. -/
def Counters.assign (env : Counters) : (first : Nat) → Index → Counters
  | _, [] => env
  | first, coordinate :: rest => (env.set first coordinate).assign (first + 1) rest

/-- Counters in front of those that are set keep their values, by induction on the index. -/
theorem Counters.assign_of_lt (env : Counters) {first counter : Nat} (index : Index)
    (before : counter < first)
    : env.assign first index counter = env counter := by
  induction index generalizing env first with
  | nil => rfl
  | cons coordinate rest ih =>
      rw [assign, ih _ (Nat.lt_succ_of_lt before), Counters.set, if_neg before.ne]

/-- The counters of an index have its coordinates, by induction on the index. -/
theorem Counters.map_assign (env : Counters) (first : Nat) (index : Index)
    : (counters first index.length).map (env.assign first index) = index := by
  induction index generalizing env first with
  | nil => rfl
  | cons coordinate rest ih =>
      have head : env.assign first (coordinate :: rest) first = coordinate := by
        rw [assign, assign_of_lt _ rest (Nat.lt_succ_self first), Counters.set, if_pos rfl]
      rw [counters, List.length_cons, List.range'_succ, List.map_cons, head, assign]
      exact congrArg (coordinate :: ·) (ih (env.set first coordinate) (first + 1))

/-- The points of a nest go through the indices of its shape, by induction on the shape. -/
theorem points_nest (first : Nat) (shape : Shape) (body : Stmt) (env : Counters)
    : (nest first shape body).points env
      = shape.indices.flatMap fun index => body.points (env.assign first index) := by
  induction shape generalizing env first with
  | nil => simp [nest, Shape.indices, Counters.assign]
  | cons extent inner ih =>
      rw [nest, Stmt.points, Shape.indices, List.flatMap_assoc]
      simp only [ih, List.flatMap_map, Counters.assign]

/-- Running a nest runs its body at the indices of its shape, by induction on the shape. -/
theorem run_nest (arith : Arithmetic) (dtype : DType) (sources : List (Array Pattern))
    (first : Nat) (shape : Shape) (body : Stmt) (env : Counters) (memory : Memory)
    : (nest first shape body).run arith dtype sources env memory
      = shape.indices.foldl
          (fun memory index => body.run arith dtype sources (env.assign first index) memory)
          memory := by
  induction shape generalizing env first memory with
  | nil => rfl
  | cons extent inner ih =>
      rw [nest, Stmt.run, fold_eq_foldl (fun value memory =>
        (nest (first + 1) inner body).run arith dtype sources (env.set first value) memory),
        Shape.indices, List.foldl_flatMap]
      simp only [ih, List.foldl_map, Counters.assign]

-----------------------------------------------------------------------------------------
-- Addresses
-----------------------------------------------------------------------------------------

/-- An address of counters and strides is the sum of their products, by induction on the
counters.
-/
theorem eval_strided (env : Counters) (vars strides : List Nat)
    : (strided vars strides).eval env = Shape.along (vars.map env) strides := by
  induction vars generalizing strides with
  | nil => cases strides <;> rfl
  | cons var rest ih =>
      cases strides with
      | nil => rfl
      | cons stride inner =>
          change (env var + 0) * stride + (strided rest inner).eval env = _
          rw [ih]
          rfl

@[simp] theorem eval_flatAddress (env : Counters) : flatAddress.eval env = env 0 := by
  simp [flatAddress, Address.eval]

/-- A source is read at the place of the index that the counters form. -/
theorem eval_strided_view {layout : Layout} (wf : layout.WellFormed) (env : Counters)
    (first : Nat) {index : Index} (held : layout.shape.Holds index)
    : (strided (counters first layout.rank) layout.strides).eval (env.assign first index)
      = layout.place index := by
  rw [eval_strided, Layout.rank, ← held.length_eq, Counters.map_assign]
  exact wf.current.along_strides held

theorem eval_strided_dense {shape : Shape} (fits : shape.Fits) (env : Counters) (vars : List Nat)
    : (strided vars shape.strides).eval env = shape.position (vars.map env) := by
  rw [eval_strided, fits.strides_eq, Shape.along_blocks]

/-- The address without the counter of an axis is the position of the index without its
coordinate.
-/
theorem eval_dropped {shape result : Shape} (fits : result.Fits) (env : Counters) (first axis : Nat)
    {index : Index} (held : shape.Holds index)
    : (strided ((counters first shape.length).eraseIdx axis) result.strides).eval
          (env.assign first index)
        = result.position (index.eraseIdx axis) := by
  rw [eval_strided_dense fits, ← List.eraseIdx_map, ← held.length_eq, Counters.map_assign]

/-- The address in another order is the position of the index in that order. -/
theorem eval_permuted {shape : Shape} (fits : shape.Fits) {order : List Nat}
    (accepted : isPermutation order shape.length = true) (env : Counters) (first : Nat)
    {index : Index} (held : shape.Holds index)
    : (strided (order.filterMap fun axis => (counters first shape.length)[axis]?)
          (Shape.strides (Buffer.permutedShape shape order))).eval (env.assign first index)
        = Shape.position (Buffer.permutedShape shape order)
            (Buffer.permutedShape index order) := by
  have permuted : (Buffer.permutedShape shape order).Fits :=
    fits.perm (Buffer.permutedShape_perm accepted).symm
  rw [eval_strided_dense permuted, List.map_filterMap]
  simp only [← List.getElem?_map, ← held.length_eq, Counters.map_assign]
  rfl

/-- Counters that are moved by what is padded before each dimension meet strides. -/
def shifted (counters : List Nat) (padding : List (Nat × Nat)) (strides : List Nat) : Address :=
  (counters.zip padding).zipWith (fun (counter, before, _) stride => ⟨counter, before, stride⟩)
    strides

/-- Counters that are moved lead along the moved index, by induction on the counters. -/
theorem eval_shifted (env : Counters) (vars : List Nat) (padding : List (Nat × Nat))
    (strides : List Nat)
    : (shifted vars padding strides).eval env
      = Shape.along (Shape.shift padding (vars.map env)) strides := by
  induction vars generalizing padding strides with
  | nil => cases strides <;> rfl
  | cons var rest ih =>
      cases padding with
      | nil => cases strides <;> rfl
      | cons pair others =>
          cases strides with
          | nil => rfl
          | cons stride inner =>
              change (env var + pair.1) * stride + (shifted rest others inner).eval env = _
              rw [ih]
              rfl

/-- Padding writes an element at the position of its index moved by what is padded before. -/
theorem eval_padded {shape result : Shape} (fits : result.Fits) (env : Counters) (first : Nat)
    {index : Index} (held : shape.Holds index) (padding : List (Nat × Nat))
    : (shifted (counters first shape.length) padding result.strides).eval
          (env.assign first index)
        = result.position (Shape.shift padding index) := by
  rw [eval_shifted, ← held.length_eq, Counters.map_assign, fits.strides_eq, Shape.along_blocks]

/-- What a product of matrices does for one cell: the loop goes along the shared dimension. -/
def cellProduct (left right : Layout) (inner columns : Nat) : Stmt :=
  .seq (.startSum (.constant Spelling.zero))
    (.seq
      (.loop 2 inner
        (.addProduct (.read 0 (strided [0, 2] left.strides))
          (.read 1 (strided [2, 1] right.strides))))
      (.storeSum (strided [0, 1] [columns, 1])))

theorem matmulKernel_eq {left right : Layout} {rows inner columns : Nat}
    (leftShape : left.shape = [rows, inner]) (rightShape : right.shape = [inner, columns])
    : matmulKernel left right = nest 0 [rows, columns] (cellProduct left right inner columns) := by
  rw [matmulKernel, leftShape, rightShape]
  rfl

theorem eval_cell (env : Counters) (rows columns row column : Nat)
    : (strided [0, 1] [columns, 1]).eval (env.assign 0 [row, column])
      = Shape.position [rows, columns] [row, column] := by
  rw [eval_strided]
  change row * columns + (column * 1 + 0) = row * (columns * 1) + (column * 1 + 0)
  rw [Nat.mul_one columns]

theorem eval_leftFactor {left : Layout} (wf : left.WellFormed) (env : Counters) {row place : Nat}
    (column : Nat) (held : left.shape.Holds [row, place])
    : (strided [0, 2] left.strides).eval ((env.assign 0 [row, column]).set 2 place)
      = left.place [row, place] := by
  rw [eval_strided]
  exact wf.current.along_strides held

theorem eval_rightFactor {right : Layout} (wf : right.WellFormed) (env : Counters)
    {place column : Nat} (row : Nat) (held : right.shape.Holds [place, column])
    : (strided [2, 1] right.strides).eval ((env.assign 0 [row, column]).set 2 place)
      = right.place [place, column] := by
  rw [eval_strided]
  exact wf.current.along_strides held

end LazyTensor.Kernel
