import LazyTensor.Proofs.Kernel.Legibility

/-! Memory accesses of kernels. At every iteration point of what the text of a kernel says, the output
index lies in the memory that is taken for the target, and every index into a source lies in the
memory of the source's node. No element of the output is left out.
-/

namespace LazyTensor

open Kernel

namespace Kernel

/-- With so many elements of output and of each source, every access of a kernel stays inside. -/
structure Stmt.Inside (program : Stmt) (capacity : Nat) (sizes : List Nat) : Prop where
  writes
    : ∀ point ∈ program.points (fun _ => 0), ∀ place ∈ point.writes, place < capacity
  reads
    : ∀ point ∈ program.points (fun _ => 0), ∀ source place, (source, place) ∈ point.reads →
        ∃ size, sizes[source]? = some size ∧ place < size

/-- Every access of a kernel stays inside, and every element of the output is written. -/
structure Stmt.Safe (program : Stmt) (capacity : Nat) (sizes : List Nat) : Prop
    extends program.Inside capacity sizes where
  covers
    : ∀ place < capacity, ∃ point ∈ program.points (fun _ => 0), place ∈ point.writes

variable {env : Counters} {point : Point} {capacity : Nat} {sizes : List Nat}

/-- Parts that stay inside do so one after the other, and the first may cover the output. -/
theorem Stmt.Safe.seq {first second : Stmt} (safe : first.Safe capacity sizes)
    (inside : second.Inside capacity sizes)
    : (Stmt.seq first second).Safe capacity sizes where
  writes := fun point member =>
    (List.mem_append.mp member).elim (safe.writes point) (inside.writes point)
  reads := fun point member =>
    (List.mem_append.mp member).elim (safe.reads point) (inside.reads point)
  covers := by
    intro place below
    obtain ⟨point, member, written⟩ := safe.covers place below
    exact ⟨point, List.mem_append_left _ member, written⟩

/-- A statement that is safe is so as it is printed: its points read and write the same places. -/
theorem Stmt.Safe.printed {body : Stmt} (safe : body.Safe capacity sizes) (dtype : DType)
    : (body.printed dtype).Safe capacity sizes where
  writes := by
    intro point member place written
    rw [points_printed] at member
    obtain ⟨point, listed, rfl⟩ := List.mem_map.mp member
    exact safe.writes point listed place (point.writes_printed dtype ▸ written)
  reads := by
    intro point member source place read
    rw [points_printed] at member
    obtain ⟨point, listed, rfl⟩ := List.mem_map.mp member
    exact safe.reads point listed source place (point.reads_printed dtype ▸ read)
  covers := by
    intro place below
    obtain ⟨point, listed, written⟩ := safe.covers place below
    rw [points_printed]
    exact ⟨_, List.mem_map_of_mem listed, (point.writes_printed dtype).symm ▸ written⟩

-----------------------------------------------------------------------------------------
-- Points of the parts of kernels
-----------------------------------------------------------------------------------------

theorem mem_points_fillFlat {count : Nat} {value : Expr}
    : point ∈ (fillFlat count value).points env
      ↔ ∃ place < count, point = ⟨.store flatAddress value, env.set 0 place⟩ := by
  simp [fillFlat, Stmt.points]

theorem mem_points_nest {first : Nat} {shape : Shape} {body : Stmt}
    : point ∈ (nest first shape body).points env
      ↔ ∃ index, shape.Holds index ∧ point ∈ body.points (env.assign first index) := by
  simp only [points_nest, List.mem_flatMap, Shape.mem_indices]

theorem writes_flat (env : Counters) (value : Expr) (place : Nat)
    : Point.writes ⟨.store flatAddress value, env.set 0 place⟩ = [place] := by
  simp [Point.writes, Counters.set]

/-- A flat loop of a value that reads nothing, or reads sources at the counter. -/
theorem safe_fillFlat {count : Nat} {value : Expr}
    (reads
      : ∀ env : Counters, ∀ source place, (source, place) ∈ value.reads env →
          place = env 0 ∧ sizes[source]? = some count)
    : (fillFlat count value).Safe count sizes where
  writes := by
    intro point member place written
    obtain ⟨counter, below, rfl⟩ := mem_points_fillFlat.mp member
    rw [writes_flat, List.mem_singleton] at written
    exact written ▸ below
  reads := by
    intro point member source place read
    obtain ⟨counter, below, rfl⟩ := mem_points_fillFlat.mp member
    obtain ⟨rfl, size⟩ := reads _ source place read
    exact ⟨count, size, by simpa [Counters.set] using below⟩
  covers := by
    intro place below
    exact ⟨_, mem_points_fillFlat.mpr ⟨place, below, rfl⟩, by simp [writes_flat]⟩

/-- A nest around one statement stays inside if the statement does at every index. -/
theorem inside_nest {first : Nat} {shape : Shape} {body : Stmt}
    (atomic : ∀ env, body.points env = [⟨body, env⟩])
    (writes
      : ∀ (env : Counters) (index : Index), shape.Holds index →
          ∀ place ∈ Point.writes ⟨body, env.assign first index⟩, place < capacity)
    (reads
      : ∀ (env : Counters) (index : Index), shape.Holds index →
          ∀ source place, (source, place) ∈ Point.reads ⟨body, env.assign first index⟩ →
            ∃ size, sizes[source]? = some size ∧ place < size)
    : (nest first shape body).Inside capacity sizes where
  writes := by
    intro point member
    obtain ⟨index, held, inside⟩ := mem_points_nest.mp member
    rw [atomic, List.mem_singleton] at inside
    exact inside ▸ writes _ index held
  reads := by
    intro point member
    obtain ⟨index, held, inside⟩ := mem_points_nest.mp member
    rw [atomic, List.mem_singleton] at inside
    exact inside ▸ reads _ index held

-----------------------------------------------------------------------------------------
-- Kernels
-----------------------------------------------------------------------------------------

theorem place_lt {layout : Layout} (wf : layout.WellFormed) {index : Index}
    (held : layout.shape.Holds index)
    : layout.place index < layout.physicalSize :=
  wf.current.place_lt held

theorem safe_mapKernel (op : UnaryMap) (source : Layout)
    : (mapKernel op source).Safe source.physicalSize [source.physicalSize] := by
  refine safe_fillFlat ?_
  intro env index place read
  simp only [Expr.reads, eval_flatAddress, List.mem_singleton, Prod.mk.injEq] at read
  exact ⟨read.2, by rw [read.1]; rfl⟩

/-- A map of two arrays of one shape is safe: the output is dense. -/
theorem safe_zipKernel (op : BinaryMap) {left right : Layout} (leftWf : left.WellFormed)
    (rightWf : right.WellFormed) (same : right.shape = left.shape)
    : (zipKernel op left right).Safe (Shape.size left.shape)
        [left.physicalSize, right.physicalSize] := by
  have fits : left.shape.Fits := leftWf.current.fits
  have rank : right.rank = left.rank := congrArg List.length same
  have written (env : Counters) {index : Index} (held : left.shape.Holds index)
      : (strided (counters 0 left.rank) (Shape.strides left.shape)).eval (env.assign 0 index)
        = left.shape.position index := by
    rw [eval_strided_dense fits, Layout.rank, ← held.length_eq, Counters.map_assign]
  refine ⟨inside_nest (fun _ => rfl) ?_ ?_, ?_⟩
  · intro env index held place member
    obtain rfl := List.mem_singleton.mp member
    rw [written env held, fits.size_eq]
    exact held.position_lt
  · intro env index held source place member
    simp only [Point.reads, Expr.reads, List.mem_append, List.mem_singleton, Prod.mk.injEq]
      at member
    rcases member with ⟨rfl, rfl⟩ | ⟨rfl, rfl⟩
    · refine ⟨_, rfl, ?_⟩
      rw [eval_strided_view leftWf env 0 held]
      exact place_lt leftWf held
    · refine ⟨_, rfl, ?_⟩
      rw [← rank, eval_strided_view rightWf env 0 (same ▸ held)]
      exact place_lt rightWf (same ▸ held)
  · intro place below
    rw [fits.size_eq] at below
    have held := Shape.indexAt_holds below
    refine ⟨_, mem_points_nest.mpr ⟨_, held, List.mem_singleton_self _⟩, ?_⟩
    refine List.mem_singleton.mpr ?_
    rw [written _ held, Shape.position_indexAt below]

/-- A nest that moves the elements of one source stays inside if its address does. -/
theorem inside_move {first : Nat} {layout : Layout} (wf : layout.WellFormed) {address : Address}
    {body : Stmt} (atomic : ∀ env, body.points env = [⟨body, env⟩])
    (writes : ∀ env, Point.writes ⟨body, env⟩ = [address.eval env])
    (reads
      : ∀ env,
          Point.reads ⟨body, env⟩
            = Expr.reads env (.read 0 (strided (counters first layout.rank) layout.strides)))
    (below
      : ∀ (env : Counters) (index : Index), layout.shape.Holds index →
          address.eval (env.assign first index) < capacity)
    : (nest first layout.shape body).Inside capacity [layout.physicalSize] := by
  refine inside_nest atomic ?_ ?_
  · intro env index held place member
    rw [writes, List.mem_singleton] at member
    exact member ▸ below env index held
  · intro env index held source place member
    rw [reads, Expr.reads, List.mem_singleton, Prod.mk.injEq] at member
    obtain ⟨rfl, rfl⟩ := member
    refine ⟨_, rfl, ?_⟩
    rw [eval_strided_view wf env first held]
    exact place_lt wf held

/-- A fold along a dimension is safe: the output is set in full before it. -/
theorem safe_reduceKernel (op : Reduction) {axis : Nat} {source : Layout}
    (wf : source.WellFormed)
    : (reduceKernel op axis source (source.shape.dropAxis axis)).Safe
        (Shape.size (source.shape.dropAxis axis)) [source.physicalSize] := by
  have fits : (source.shape.dropAxis axis).Fits :=
    wf.current.fits.sublist (List.eraseIdx_sublist _ axis)
  refine (safe_fillFlat (by simp [Expr.reads])).seq ?_
  refine inside_move wf (fun _ => rfl) (fun _ => rfl) (fun _ => rfl) ?_
  intro env index held
  rw [Layout.rank, eval_dropped fits env 1 axis held, fits.size_eq]
  exact (held.eraseIdx axis).position_lt

/-- An exchange of dimensions is safe: every index of the output comes from one of the source. -/
theorem safe_permuteKernel {order : List Nat} {source : Layout} (wf : source.WellFormed)
    (accepted : isPermutation order source.rank = true)
    : (permuteKernel order source (Buffer.permutedShape source.shape order)).Safe
        (Shape.size (Buffer.permutedShape source.shape order)) [source.physicalSize] := by
  have fits : source.shape.Fits := wf.current.fits
  have permuted : (Buffer.permutedShape source.shape order).Fits :=
    fits.perm (Buffer.permutedShape_perm accepted).symm
  refine ⟨inside_move wf (fun _ => rfl) (fun _ => rfl) (fun _ => rfl) ?_, ?_⟩
  · intro env index held
    rw [Layout.rank, eval_permuted fits accepted env 0 held, permuted.size_eq]
    exact (held.permute accepted).position_lt
  · intro place below
    rw [permuted.size_eq] at below
    obtain ⟨held, same⟩ := Shape.Holds.unpermute accepted (Shape.indexAt_holds below)
    refine ⟨_, mem_points_nest.mpr ⟨_, held, List.mem_singleton_self _⟩, ?_⟩
    refine List.mem_singleton.mpr ?_
    rw [Layout.rank, eval_permuted fits accepted _ 0 held, same, Shape.position_indexAt below]

/-- Padding is safe: zeros are written in full before elements are moved between them. -/
theorem safe_padKernel {padding : List (Nat × Nat)} {source : Layout} {result : Shape}
    (wf : source.WellFormed) (length : padding.length = source.rank)
    (padded : Buffer.paddedShape source.shape padding = some result) (fits : result.Fits)
    : (padKernel padding source result).Safe (Shape.size result) [source.physicalSize] := by
  refine (safe_fillFlat (by simp [Expr.reads])).seq ?_
  refine inside_move wf (fun _ => rfl) (fun _ => rfl) (fun _ => rfl) ?_
  intro env index held
  refine (eval_padded fits env 1 held padding).trans_lt ?_
  rw [fits.size_eq]
  have moved := held.shift length
  rw [← Shape.paddedShape_eq padded] at moved
  exact moved.position_lt

/-- The points of a cell: the start of its sum, its products and the end of its sum. -/
theorem mem_points_cellProduct {left right : Layout} {inner columns : Nat}
    : point ∈ (cellProduct left right inner columns).points env
      ↔ point = ⟨.startSum (.constant Spelling.zero), env⟩
        ∨ (∃ place < inner,
            point
              = ⟨.addProduct (.read 0 (strided [0, 2] left.strides))
                  (.read 1 (strided [2, 1] right.strides)), env.set 2 place⟩)
        ∨ point = ⟨.storeSum (strided [0, 1] [columns, 1]), env⟩ := by
  simp [cellProduct, Stmt.points]

/-- A product of matrices is safe. -/
theorem safe_matmulKernel {left right : Layout} (leftWf : left.WellFormed)
    (rightWf : right.WellFormed) {rows inner columns : Nat}
    (leftShape : left.shape = [rows, inner]) (rightShape : right.shape = [inner, columns])
    (fits : Shape.Fits [rows, columns])
    : (matmulKernel left right).Safe (Shape.size [rows, columns])
        [left.physicalSize, right.physicalSize] := by
  rw [matmulKernel_eq leftShape rightShape]
  refine ⟨⟨?_, ?_⟩, ?_⟩
  · intro point member place written
    obtain ⟨index, held, inside⟩ := mem_points_nest.mp member
    obtain ⟨row, column, rfl, rowBelow, columnBelow⟩ := held.exists_pair
    rcases mem_points_cellProduct.mp inside with rfl | ⟨_, _, rfl⟩ | rfl
    · cases written
    · cases written
    · obtain rfl := List.mem_singleton.mp written
      rw [eval_cell _ rows, fits.size_eq]
      exact held.position_lt
  · intro point member source place read
    obtain ⟨index, held, inside⟩ := mem_points_nest.mp member
    obtain ⟨row, column, rfl, rowBelow, columnBelow⟩ := held.exists_pair
    rcases mem_points_cellProduct.mp inside with rfl | ⟨step, below, rfl⟩ | rfl
    · cases read
    · have leftHeld : left.shape.Holds [row, step] := by simp [leftShape, rowBelow, below]
      have rightHeld : right.shape.Holds [step, column] := by
        simp [rightShape, columnBelow, below]
      simp only [Point.reads, Expr.reads, List.mem_append, List.mem_singleton, Prod.mk.injEq]
        at read
      rcases read with ⟨rfl, rfl⟩ | ⟨rfl, rfl⟩
      · refine ⟨_, rfl, ?_⟩
        rw [eval_leftFactor leftWf _ column leftHeld]
        exact place_lt leftWf leftHeld
      · refine ⟨_, rfl, ?_⟩
        rw [eval_rightFactor rightWf _ row rightHeld]
        exact place_lt rightWf rightHeld
    · cases read
  · intro place below
    rw [fits.size_eq] at below
    have held := Shape.indexAt_holds below
    have written := Shape.position_indexAt below
    obtain ⟨row, column, same, _⟩ := held.exists_pair
    rw [same] at held written
    refine ⟨_, mem_points_nest.mpr ⟨_, held, mem_points_cellProduct.mpr (.inr (.inr rfl))⟩, ?_⟩
    refine List.mem_singleton.mpr ?_
    rw [eval_cell _ rows, written]

end Kernel

/-- The kernel of a task that fits is safe, by cases on how its parts fit. -/
theorem Task.Fits.safe {task : Task} {program : Stmt} (fits : task.Fits program)
    : program.Safe task.target.layout.physicalSize
        (task.sources.map (·.layout.physicalSize)) := by
  obtain ⟨runs, _, targetWf, sourcesWf⟩ := fits
  cases runs with
  | empty | constant | random => exact safe_fillFlat (by simp [Expr.reads])
  | unary op source target kept =>
      change (mapKernel op source.layout).Safe target.layout.physicalSize [_]
      rw [kept]
      exact safe_mapKernel op source.layout
  | binary op left right target elementwise same dense =>
      change (zipKernel op left.layout right.layout).Safe target.layout.physicalSize [_, _]
      rw [dense, Layout.physicalSize_dense]
      exact safe_zipKernel op (sourcesWf left (by simp)) (sourcesWf right (by simp)) same
  | @matmul left right target rows inner columns leftShape rightShape dense =>
      change (matmulKernel left.layout right.layout).Safe target.layout.physicalSize [_, _]
      have fits : target.shape.Fits := targetWf.current.fits
      rw [Buffer.shape_of_dense dense] at fits
      rw [dense, Layout.physicalSize_dense]
      exact safe_matmulKernel (sourcesWf left (by simp)) (sourcesWf right (by simp)) leftShape
        rightShape fits
  | @reduce op source target axis inside dense =>
      change (reduceKernel op axis source.layout target.shape).Safe target.layout.physicalSize [_]
      rw [Buffer.shape_of_dense dense, dense, Layout.physicalSize_dense]
      exact safe_reduceKernel op (sourcesWf source (by simp))
  | @permute source target order accepted dense =>
      change (permuteKernel order source.layout target.shape).Safe target.layout.physicalSize [_]
      rw [Buffer.shape_of_dense dense, dense, Layout.physicalSize_dense]
      exact safe_permuteKernel (sourcesWf source (by simp)) accepted
  | @pad source target padding length padded dense =>
      change (padKernel padding source.layout target.shape).Safe target.layout.physicalSize [_]
      have fits : target.shape.Fits := targetWf.current.fits
      rw [dense, Layout.physicalSize_dense]
      exact safe_padKernel (sourcesWf source (by simp)) length padded fits

/-- The sizes on which a kernel of a schedule counts are those of the nodes' storage. -/
theorem Schedule.Contract.capacities {graph : Graph} {root : Nat} {schedule : Schedule}
    (contract : Schedule.Contract graph root schedule) (wf : graph.WellFormed) {task : Task}
    (member : task ∈ schedule)
    : task.target.layout.physicalSize = graph.capacity task.target.node
      ∧ task.sources.map (·.layout.physicalSize)
        = task.sources.map fun source => graph.capacity source.node := by
  obtain ⟨node, operation, waits, same⟩ := contract.exists_waits member
  constructor
  · rw [Graph.capacity, waits.found, same]
    rfl
  · refine List.map_congr_left ?_
    intro source inside
    rw [same] at inside
    obtain ⟨recorded, listed, rfl⟩ := List.mem_map.mp inside
    exact Graph.capacity_of_reads ((wf _ node waits.found).reads operation waits.made _ listed)

end LazyTensor
