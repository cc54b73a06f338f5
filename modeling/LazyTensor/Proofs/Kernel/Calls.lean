import LazyTensor.Proofs.Kernel.Bounds
import LazyTensor.Proofs.Kernel.Counting

/-! Calls of kernels in words. The strides of a kernel are no larger than its arrays are, and its loops
all have rounds. So a call over arrays that can be stored has an outcome in words just if the dimensions
that are folded can be counted.
-/

namespace LazyTensor

open Kernel

namespace Kernel

/-- A statement that stays inside arrays has a meaning in words if its bounds and strides have. -/
theorem Stmt.Inside.defined {body : Stmt} {sources : List (Array Pattern)} {size : Nat}
    (inside : body.Inside size (sources.map Array.size)) (bounds : Counted body.bounds)
    (strides : Counted body.strides)
    : body.Defined sources size (fun _ => 0) where
  bounds := bounds
  strides := strides
  writes := inside.writes
  reads := by
    intro point member source place read
    obtain ⟨size, found, below⟩ := inside.reads point member source place read
    rw [List.getElem?_map] at found
    obtain ⟨cells, given, rfl⟩ := Option.map_eq_some_iff.mp found
    exact ⟨cells, given, below⟩

-----------------------------------------------------------------------------------------
-- Strides of kernels
-----------------------------------------------------------------------------------------

/-- The strides of terms that are made one by one are among those they are made with, by induction on
what the terms are made of.
-/
theorem map_stride_zipWith {α : Type} {term : α → Nat → Term}
    (own : ∀ part stride, (term part stride).stride = stride) (parts : List α) (strides : List Nat)
    : (parts.zipWith term strides).map (·.stride) ⊆ strides := by
  induction parts generalizing strides with
  | nil => simp
  | cons part rest ih =>
      cases strides with
      | nil => simp
      | cons stride others =>
          rw [List.zipWith_cons_cons, List.map_cons, own]
          exact List.cons_subset_cons stride (ih others)

theorem counted_strided {strides : List Nat} (small : Counted strides) (vars : List Nat)
    : Counted ((strided vars strides).map (·.stride)) :=
  fun stride member => small stride (map_stride_zipWith (fun _ _ => rfl) vars strides member)

theorem counted_shifted {strides : List Nat} (small : Counted strides) (vars : List Nat)
    (padding : List (Nat × Nat))
    : Counted ((shifted vars padding strides).map (·.stride)) :=
  fun stride member => small stride (map_stride_zipWith (fun _ _ => rfl) _ strides member)

theorem counted_flat : Counted (flatAddress.map (·.stride)) :=
  List.forall_mem_singleton.mpr (by decide)

theorem strides_nest (first : Nat) (shape : Shape) (body : Stmt)
    : (nest first shape body).strides = body.strides := by
  induction shape generalizing first with
  | nil => rfl
  | cons extent inner ih => exact ih (first + 1)

theorem counted_zipKernel (op : BinaryMap) {left right : Layout}
    (result : Counted (Shape.strides left.shape)) (inLeft : Counted left.strides)
    (inRight : Counted right.strides)
    : Counted (zipKernel op left right).strides := by
  rw [zipKernel, strides_nest]
  exact List.forall_mem_append.mpr ⟨counted_strided result _,
    List.forall_mem_append.mpr ⟨counted_strided inLeft _, counted_strided inRight _⟩⟩

theorem counted_reduceKernel (op : Reduction) (axis : Nat) {source : Layout} {result : Shape}
    (own : Counted (Shape.strides result)) (inSource : Counted source.strides)
    : Counted (reduceKernel op axis source result).strides := by
  rw [reduceKernel, Stmt.strides, strides_nest]
  exact List.forall_mem_append.mpr ⟨counted_flat,
    List.forall_mem_append.mpr ⟨counted_strided own _, counted_strided inSource _⟩⟩

theorem counted_permuteKernel (order : List Nat) {source : Layout} {result : Shape}
    (own : Counted (Shape.strides result)) (inSource : Counted source.strides)
    : Counted (permuteKernel order source result).strides := by
  rw [permuteKernel, strides_nest]
  exact List.forall_mem_append.mpr ⟨counted_strided own _, counted_strided inSource _⟩

theorem counted_padKernel (padding : List (Nat × Nat)) {source : Layout} {result : Shape}
    (own : Counted (Shape.strides result)) (inSource : Counted source.strides)
    : Counted (padKernel padding source result).strides := by
  rw [padKernel, Stmt.strides, strides_nest]
  exact List.forall_mem_append.mpr ⟨counted_flat,
    List.forall_mem_append.mpr ⟨counted_shifted own _ _, counted_strided inSource _⟩⟩

theorem counted_matmulKernel {left right : Layout} {rows inner columns : Nat}
    (leftShape : left.shape = [rows, inner]) (rightShape : right.shape = [inner, columns])
    (own : Counted [columns, 1]) (inLeft : Counted left.strides)
    (inRight : Counted right.strides)
    : Counted (matmulKernel left right).strides := by
  rw [matmulKernel_eq leftShape rightShape, strides_nest]
  have factors :=
    List.forall_mem_append.mpr ⟨counted_strided inLeft [0, 2], counted_strided inRight [2, 1]⟩
  exact List.forall_mem_append.mpr ⟨List.forall_mem_nil _,
    List.forall_mem_append.mpr ⟨factors, counted_strided own _⟩⟩

end Kernel

-----------------------------------------------------------------------------------------
-- Strides and bounds of tasks
-----------------------------------------------------------------------------------------

/-- No stride is larger than a usable shape, by induction on the dimensions. -/
theorem Shape.Fits.stride_le {shape : Shape} (fits : shape.Fits) {stride : Nat}
    (member : stride ∈ shape.strides)
    : stride ≤ shape.size := by
  rw [fits.strides_eq] at member
  rw [fits.size_eq]
  induction shape with
  | nil => cases member
  | cons extent inner ih =>
      have whole : Shape.volume inner ≤ extent * Shape.volume inner :=
        Nat.le_mul_of_pos_left _ fits.head_pos
      rcases List.mem_cons.mp member with rfl | inside
      · exact whole
      · exact (ih fits.tail inside).trans whole

/-- No stride of a view is larger than what is stored. -/
theorem Layout.WellFormed.stride_le {layout : Layout} (wf : layout.WellFormed) {stride : Nat}
    (member : stride ∈ layout.strides)
    : stride ≤ layout.physicalSize := by
  obtain ⟨axis, inside, rfl⟩ := List.mem_iff_getElem.mp member
  simp only [strides, View.strides, List.getElem_zipWith]
  split
  · exact Nat.zero_le _
  · exact wf.current.physicalShape_fits.stride_le (List.getElem_mem _)

namespace Task.Fits

variable {task : Task} {program : Stmt}

/-- The strides of a kernel are in the range of words if its arrays are, by cases on the task. -/
theorem counted_strides (fits : task.Fits program)
    (few : ∀ used ∈ task.target :: task.sources, used.layout.physicalSize < 2 ^ 63)
    : Counted program.strides := by
  have view (source : Buffer) (listed : source ∈ task.sources) : Counted source.layout.strides :=
    fun stride member =>
      ((fits.sources source listed).stride_le member).trans_lt
        (few source (List.mem_cons_of_mem _ listed))
  have target {shape : Shape} (dense : task.target.layout = .dense shape)
      : Counted shape.strides := by
    intro stride member
    have most := (fits.physicalSize_eq dense).1.stride_le member
    rw [← Layout.physicalSize_dense, ← dense] at most
    exact most.trans_lt (few task.target List.mem_cons_self)
  have runs := fits.runs
  cases runs with
  | empty | constant | random | unary =>
      exact List.forall_mem_append.mpr ⟨counted_flat, by simp [Expr.strides, flatAddress]⟩
  | binary op left right _ elementwise same dense =>
      exact counted_zipKernel op (target dense) (view left (by simp)) (view right (by simp))
  | @matmul left right _ rows inner columns leftShape rightShape dense =>
      have own := target dense
      rw [(fits.physicalSize_eq dense).1.strides_eq] at own
      refine counted_matmulKernel leftShape rightShape ?_ (view left (by simp))
        (view right (by simp))
      simpa [Shape.blocks] using own
  | @reduce op source _ axis inside dense =>
      have own := Buffer.shape_of_dense dense ▸ target dense
      exact counted_reduceKernel op axis own (view source (by simp))
  | permute source _ accepted dense =>
      have own := Buffer.shape_of_dense dense ▸ target dense
      exact counted_permuteKernel _ own (view source (by simp))
  | pad source _ length padded dense =>
      exact counted_padKernel _ (target dense) (view source (by simp))

/-- Every loop of a kernel has rounds, by cases on the task. -/
theorem bound_pos (fits : task.Fits program) : ∀ bound ∈ program.bounds, 0 < bound := by
  have stored (layout : Layout) (wf : layout.WellFormed) : 0 < layout.physicalSize := by
    rw [wf.physicalSize_eq]
    exact wf.current.physicalShape_fits.volume_pos
  have shown (source : Buffer) (listed : source ∈ task.sources)
      : ∀ extent ∈ source.shape, 0 < extent :=
    (fits.sources source listed).current.fits.positive
  have target : ∀ extent ∈ [task.target.layout.physicalSize], 0 < extent :=
    List.forall_mem_singleton.mpr (stored _ fits.target)
  have size {shape : Shape} (dense : task.target.layout = .dense shape) : 0 < Shape.size shape := by
    have positive := stored _ fits.target
    rwa [dense, Layout.physicalSize_dense] at positive
  have runs := fits.runs
  cases runs with
  | empty | constant | random => exact target
  | unary op source target kept =>
      exact List.forall_mem_singleton.mpr (stored _ (fits.sources source List.mem_cons_self))
  | binary op left right target elementwise same dense =>
      rw [bounds_zipKernel]
      exact shown left List.mem_cons_self
  | @matmul left right target rows inner columns leftShape rightShape dense =>
      have inLeft := shown left List.mem_cons_self
      have inRight := shown right (List.mem_cons_of_mem _ List.mem_cons_self)
      rw [leftShape] at inLeft
      rw [rightShape] at inRight
      rw [bounds_matmulKernel leftShape rightShape]
      simp only [List.forall_mem_cons] at inLeft inRight ⊢
      exact ⟨inLeft.1, inRight.2.1, inLeft.2.1, inRight.2.2⟩
  | @reduce op source target axis inside dense =>
      rw [bounds_reduceKernel, Buffer.shape_of_dense dense]
      exact List.forall_mem_cons.mpr ⟨size dense, shown source List.mem_cons_self⟩
  | @permute source target order accepted dense =>
      rw [bounds_permuteKernel]
      exact shown source List.mem_cons_self
  | @pad source target padding length padded dense =>
      rw [bounds_padKernel]
      exact List.forall_mem_cons.mpr ⟨size dense, shown source List.mem_cons_self⟩

-----------------------------------------------------------------------------------------
-- Calls
-----------------------------------------------------------------------------------------

/-- Over arrays of the right sizes that can be stored, the kernel of a task has a meaning in words if
the dimensions that it folds have.
-/
theorem defined (fits : task.Fits program) {out : Array Pattern} {sources : List (Array Pattern)}
    (outSize : out.size = task.target.layout.physicalSize)
    (sizes : sources.map Array.size = task.sources.map (·.layout.physicalSize))
    (few : ∀ cells ∈ out :: sources, cells.size < 2 ^ 63)
    (folds : ∀ fold ∈ task.folds, fold.extent < 2 ^ 63)
    : program.Defined sources out.size (fun _ => 0) := by
  have safe := fits.safe
  rw [← outSize, ← sizes] at safe
  refine safe.defined ?_ (fits.counted_strides (List.forall_mem_cons.mpr ⟨?_, ?_⟩))
  · intro bound member
    rcases fits.bound_le_or_folded member with most | ⟨fold, listed, rfl⟩
    · exact (most.trans_eq outSize.symm).trans_lt (few out List.mem_cons_self)
    · exact folds fold listed
  · exact outSize ▸ few out List.mem_cons_self
  · intro source listed
    have size := List.mem_map_of_mem (f := (·.layout.physicalSize)) listed
    rw [← sizes] at size
    obtain ⟨cells, given, same⟩ := List.mem_map.mp size
    exact same ▸ few cells (List.mem_cons_of_mem _ given)

/-- Over arrays of the right sizes that can be stored, the function of a task that fits has an outcome
in words if and only if the dimensions that it folds are in their range, and then it is the outcome
with numbers of any size.
-/
theorem exec_routine (fits : task.Fits program) {arith : Arithmetic} {out : Array Pattern}
    {sources : List (Array Pattern)}
    (known
      : ∀ bits ∈ program.constants,
          arith.constant task.target.dtype (task.target.dtype.narrowed bits)
            = arith.constant task.target.dtype bits)
    (outSize : out.size = task.target.layout.physicalSize)
    (sizes : sources.map Array.size = task.sources.map (·.layout.physicalSize))
    (few : ∀ cells ∈ out :: sources, cells.size < 2 ^ 63)
    : (task.routine program).exec arith out sources
      = if ∀ fold ∈ task.folds, fold.extent < 2 ^ 63 then
          some ((task.routine program).apply arith out sources)
        else none := by
  split
  · next folds =>
      exact Routine.exec_eq_some rfl few known (fits.defined outSize sizes few folds)
  · next folds =>
      refine Option.map_eq_none_iff.mpr (Option.eq_none_iff_forall_ne_some.mpr ?_)
      intro done ends
      have busy : ∀ bound ∈ (program.printed task.target.dtype).bounds, 0 < bound := by
        rw [bounds_printed]
        exact fits.bound_pos
      have small := Stmt.bounds_of_exec busy ends
      rw [bounds_printed] at small
      exact folds fun fold listed => small _ (fits.runs.folded listed).2.2.1

end Task.Fits

end LazyTensor
