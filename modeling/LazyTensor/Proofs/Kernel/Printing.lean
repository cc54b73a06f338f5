import LazyTensor.Proofs.Float.Widening
import LazyTensor.Proofs.Kernel.Literal
import LazyTensor.Proofs.Kernel.Points

/-! Programs as they are printed. The text of an address leaves out the terms whose stride is zero,
the text of a constant has it rounded to the element type, and statements stand one after the other
however they are nested in a program. None of this changes what a kernel does to memory.
-/

namespace LazyTensor

-----------------------------------------------------------------------------------------
-- Constants
-----------------------------------------------------------------------------------------

namespace DType

/-- The wide number that the literal of a wide number stands for. -/
def narrowed (dtype : DType) (bits : UInt64) : UInt64 := dtype.toBinary64 (dtype.canonical bits)

/-- What is no number becomes the one pattern that literals have for it. -/
theorem toNat_ofBinary64 (dtype : DType) (bits : UInt64)
    : (dtype.ofBinary64 bits).toNat = dtype.canonical bits := by
  have converts := dtype.converts_ofBinary64 bits
  rw [canonical]
  split
  · next nan =>
      rw [converts.isNaN_eq] at nan
      cases dtype with
      | float32 =>
          rw [toNat_ofBinary64_float32, Float.Format.convert_of_isNaN nan]
          rfl
      | float64 =>
          rw [ofBinary64, if_pos nan]
          rfl
  · rfl

/-- A constant and its literal are the same element. -/
theorem ofBinary64_narrowed (dtype : DType) (bits : UInt64)
    : dtype.ofBinary64 (dtype.narrowed bits) = dtype.ofBinary64 bits := by
  have same := dtype.toNat_ofBinary64 bits
  have kept
      : dtype.format.isNaN (dtype.canonical bits) = true
        → dtype.canonical bits = dtype.format.nan := by
    rw [← same]
    intro nan
    rw [same, canonical, if_pos nan]
  rw [narrowed, ofBinary64_toBinary64 dtype (same ▸ dtype.ofBinary64_lt bits) kept, ← same]
  exact UInt64.ofNat_toNat

/-- The numbers that folds start from are elements of both types. -/
theorem narrowed_identity (dtype : DType) (op : Reduction)
    : dtype.narrowed op.identity = op.identity := by
  cases dtype
  all_goals
    cases op
    all_goals rfl

end DType

namespace Kernel

-----------------------------------------------------------------------------------------
-- Addresses and expressions
-----------------------------------------------------------------------------------------

/-- The terms that move an address. -/
def Address.moving (address : Address) : Address := address.filter (·.stride != 0)

/-- Terms that do not move an address add nothing to it, by induction on the terms. -/
theorem Address.eval_moving (env : Counters) (address : Address)
    : address.moving.eval env = address.eval env := by
  induction address with
  | nil => rfl
  | cons term rest ih =>
      by_cases still : term.stride = 0
      · have left : moving (term :: rest) = moving rest := by simp [moving, still]
        rw [left, ih, eval, still, Nat.mul_zero, Nat.zero_add]
      · have kept : moving (term :: rest) = term :: moving rest := by simp [moving, still]
        rw [kept, eval, eval, ih]

/-- The expression as it is printed. -/
def Expr.printed (dtype : DType) : Expr → Expr
  | constant bits => constant (dtype.narrowed bits)
  | draw seed counter => draw seed counter
  | read source address => read source address.moving
  | unary op operand => unary op (operand.printed dtype)
  | binary op left right => binary op (left.printed dtype) (right.printed dtype)

section Evaluation

variable {arith : Arithmetic} {dtype : DType} {sources : List (Array Pattern)}

/-- An expression as it is printed has the same value if its constants have. -/
theorem Expr.eval_printed {expr : Expr}
    (known : ∀ bits ∈ expr.constants, arith.constant dtype (dtype.narrowed bits)
      = arith.constant dtype bits)
    (env : Counters)
    : (expr.printed dtype).eval arith dtype sources env = expr.eval arith dtype sources env := by
  induction expr with
  | constant bits => exact known bits List.mem_cons_self
  | draw => rfl
  | read source address => rw [printed, eval, eval, Address.eval_moving]
  | unary op operand ih => rw [printed, eval, eval, ih known]
  | binary op left right ihLeft ihRight =>
      obtain ⟨knownLeft, knownRight⟩ := List.forall_mem_append.mp known
      rw [printed, eval, eval, ihLeft knownLeft, ihRight knownRight]

theorem Expr.reads_printed (dtype : DType) (expr : Expr) (env : Counters)
    : (expr.printed dtype).reads env = expr.reads env := by
  induction expr with
  | constant | draw => rfl
  | read source address => rw [printed, reads, reads, Address.eval_moving]
  | unary op operand ih => exact ih
  | binary op left right ihLeft ihRight => rw [printed, reads, reads, ihLeft, ihRight]

-----------------------------------------------------------------------------------------
-- Statements
-----------------------------------------------------------------------------------------

/-- An innermost statement as it is printed. -/
def Stmt.line (dtype : DType) : Stmt → Stmt
  | store address value => store address.moving (value.printed dtype)
  | fold op address value => fold op address.moving (value.printed dtype)
  | startSum value => startSum (value.printed dtype)
  | addProduct left right => addProduct (left.printed dtype) (right.printed dtype)
  | storeSum address => storeSum address.moving
  | other => other

/-- The statements that are printed one after the other. -/
def Stmt.steps (dtype : DType) : Stmt → List Stmt
  | skip => []
  | seq first second => first.steps dtype ++ second.steps dtype
  | loop counter bound body => [loop counter bound (ofList (body.steps dtype))]
  | other => [other.line dtype]

/-- The statement as it is printed. -/
def Stmt.printed (dtype : DType) (body : Stmt) : Stmt := ofList (body.steps dtype)

/-- A point as it is printed. -/
def Point.printed (dtype : DType) (point : Point) : Point := ⟨point.stmt.line dtype, point.env⟩

theorem Point.writes_printed (dtype : DType) (point : Point)
    : (point.printed dtype).writes = point.writes := by
  obtain ⟨body, env⟩ := point
  cases body with
  | store | fold | storeSum => simp only [printed, Stmt.line, writes, Address.eval_moving]
  | _ => rfl

theorem Point.reads_printed (dtype : DType) (point : Point)
    : (point.printed dtype).reads = point.reads := by
  obtain ⟨body, env⟩ := point
  cases body with
  | store | fold | startSum | addProduct =>
      simp only [printed, Stmt.line, reads, Expr.reads_printed]
  | _ => rfl

/-- An innermost statement does the same as it is printed, if its constants are the same. -/
theorem Stmt.run_line {body : Stmt}
    (known : ∀ bits ∈ body.constants, arith.constant dtype (dtype.narrowed bits)
      = arith.constant dtype bits)
    (env : Counters) (memory : Memory)
    : (body.line dtype).run arith dtype sources env memory
      = body.run arith dtype sources env memory := by
  cases body with
  | store | fold => simp only [line, run, Address.eval_moving, Expr.eval_printed known]
  | startSum => simp only [line, run, Expr.eval_printed known]
  | addProduct =>
      obtain ⟨knownLeft, knownRight⟩ := List.forall_mem_append.mp known
      simp only [line, run, Expr.eval_printed knownLeft, Expr.eval_printed knownRight]
  | storeSum => simp only [line, run, Address.eval_moving]
  | skip | seq | loop => rfl

/-- The points of statements one after the other, by induction on the statements. -/
theorem Stmt.points_ofList (list : List Stmt) (env : Counters)
    : (ofList list).points env = list.flatMap (·.points env) := by
  induction list with
  | nil => rfl
  | cons body others ih =>
      cases others with
      | nil => simp [ofList]
      | cons => exact congrArg (body.points env ++ ·) ih

/-- The points of a statement as it is printed are its points as they are, by induction on the
statement.
-/
theorem Stmt.points_printed (dtype : DType) (body : Stmt) (env : Counters)
    : (body.printed dtype).points env = (body.points env).map (·.printed dtype) := by
  induction body generalizing env with
  | skip => rfl
  | seq first second ihFirst ihSecond =>
      rw [printed, steps, points_ofList, List.flatMap_append, ← points_ofList, ← points_ofList,
        points, List.map_append]
      exact congrArg₂ _ (ihFirst env) (ihSecond env)
  | loop counter bound body ih =>
      rw [points, List.map_flatMap]
      exact List.flatMap_congr fun value _ => ih (env.set counter value)
  | store | fold | startSum | addProduct | storeSum => rfl

/-- A statement writes the same places in the same order as it is printed. -/
theorem Stmt.writes_printed (dtype : DType) (body : Stmt) (env : Counters)
    : ((body.printed dtype).points env).flatMap Point.writes
      = (body.points env).flatMap Point.writes := by
  rw [points_printed, List.flatMap_map]
  exact List.flatMap_congr fun point _ => point.writes_printed dtype

/-- The constants of points are among those of the statement. -/
theorem Stmt.constants_of_mem_points {body : Stmt} {env : Counters} {point : Point}
    (member : point ∈ body.points env)
    : point.stmt.constants ⊆ body.constants := by
  induction body generalizing env with
  | skip => cases member
  | seq first second ihFirst ihSecond =>
      rcases List.mem_append.mp member with inFirst | inSecond
      · exact List.Subset.trans (ihFirst inFirst) (List.subset_append_left _ _)
      · exact List.Subset.trans (ihSecond inSecond) (List.subset_append_right _ _)
  | loop counter bound body ih =>
      obtain ⟨value, _, inside⟩ := List.mem_flatMap.mp member
      exact ih inside
  | store | fold | startSum | addProduct | storeSum =>
      obtain rfl := List.mem_singleton.mp member
      exact List.Subset.refl _

theorem constants_nest (first : Nat) (shape : Shape) (body : Stmt)
    : (nest first shape body).constants = body.constants := by
  induction shape generalizing first with
  | nil => rfl
  | cons extent inner ih => exact ih (first + 1)

/-- A statement as it is printed does the same if its constants are the same. -/
theorem Stmt.run_printed {body : Stmt}
    (known : ∀ bits ∈ body.constants, arith.constant dtype (dtype.narrowed bits)
      = arith.constant dtype bits)
    (env : Counters) (memory : Memory)
    : (body.printed dtype).run arith dtype sources env memory
      = body.run arith dtype sources env memory := by
  rw [run_eq_foldl, run_eq_foldl, points_printed, List.foldl_map]
  refine List.foldl_ext _ _ _ fun memory point member => ?_
  exact run_line (fun bits listed => known bits (constants_of_mem_points member listed)) _ _

/-- A kernel as it is printed leaves the same if its constants are the same. -/
theorem Stmt.apply_printed {body : Stmt}
    (known : ∀ bits ∈ body.constants, arith.constant dtype (dtype.narrowed bits)
      = arith.constant dtype bits)
    (out : Array Pattern)
    : (body.printed dtype).apply arith dtype out sources = body.apply arith dtype out sources := by
  rw [apply_eq, apply_eq, run_printed known]

end Evaluation

end Kernel

end LazyTensor
