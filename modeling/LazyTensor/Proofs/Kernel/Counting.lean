import LazyTensor.Proofs.Kernel.Limits
import LazyTensor.Proofs.Kernel.Printing
import LazyTensor.Proofs.Kernel.Writes

/-! Kernels in the numbers of C. Counters and places are signed words: a loop that counts further, a
sum or a product that leaves their range and an access outside an array all have no meaning. A kernel
that stays inside arrays which can be stored does none of this as long as its loops count within the
range, and then it does what it does with numbers of any size. Where one loop counts further, there is
no outcome at all.
-/

namespace LazyTensor

open Kernel

namespace Kernel

-----------------------------------------------------------------------------------------
-- Statements in words
-----------------------------------------------------------------------------------------

/-- Numbers in the range of words. -/
def Counted (numbers : List Nat) : Prop := ∀ number ∈ numbers, number < 2 ^ 63

/-- A number, if it is in the range of words. -/
def counted? (number : Nat) : Option Nat := if number < 2 ^ 63 then some number else none

/-- A term in words. -/
def Term.exec (env : Counters) (term : Term) : Option Nat := do
  let coordinate ← counted? (env term.counter + term.offset)
  let stride ← counted? term.stride
  counted? (coordinate * stride)

/-- The place that an address names in words, where terms are added from the left. -/
def Address.exec (env : Counters) (address : Address) : Option Nat :=
  address.foldlM (fun sum term => do counted? (sum + (← term.exec env))) 0

/-- The place of the output that an address names in words. -/
def Memory.place? (memory : Memory) (env : Counters) (address : Address) : Option Nat := do
  let place ← address.exec env
  if place < memory.out.size then some place else none

section Execution

variable (arith : Arithmetic) (dtype : DType) (sources : List (Array Pattern))

/-- The number of an expression, whose reads stay inside the sources. -/
def Expr.exec (env : Counters) : Expr → Option Pattern
  | constant bits => some (arith.constant dtype bits)
  | draw seed counter => some (arith.draw dtype seed (.ofNat (env counter)))
  | read source address => do
      let cells ← sources[source]?
      let place ← address.exec env
      cells[place]?
  | unary op operand => do
      let value ← operand.exec env
      return arith.unary dtype op value
  | binary op left right => do
      let left ← left.exec env
      let right ← right.exec env
      return arith.binary dtype op left right

/-- Runs a statement in words. -/
def Stmt.exec : Stmt → Counters → Memory → Option Memory
  | skip, _, memory => some memory
  | seq first second, env, memory => do
      let memory ← first.exec env memory
      second.exec env memory
  | loop counter bound body, env, memory =>
      if bound < 2 ^ 63 then
        (List.range bound).foldlM (fun memory value => body.exec (env.set counter value) memory)
          memory
      else none
  | store address value, env, memory => do
      let place ← memory.place? env address
      let value ← value.exec arith dtype sources env
      return { memory with out := memory.out.setIfInBounds place value }
  | fold op address value, env, memory => do
      let place ← memory.place? env address
      let value ← value.exec arith dtype sources env
      let total := arith.binary dtype op.step (memory.out.getD place 0) value
      return { memory with out := memory.out.setIfInBounds place total }
  | startSum value, env, memory => do
      let value ← value.exec arith dtype sources env
      return { memory with sum := value }
  | addProduct left right, env, memory => do
      let left ← left.exec arith dtype sources env
      let right ← right.exec arith dtype sources env
      let product := arith.binary dtype .mul left right
      return { memory with sum := arith.binary dtype .add memory.sum product }
  | storeSum address, env, memory => do
      let place ← memory.place? env address
      return { memory with out := memory.out.setIfInBounds place memory.sum }

end Execution

/-- The output after a call in words. -/
def Routine.exec (routine : Routine) (arith : Arithmetic) (out : Array Pattern)
    (sources : List (Array Pattern)) : Option (Array Pattern) :=
  (routine.body.exec arith routine.dtype sources (fun _ => 0) ⟨out, 0⟩).map (·.out)

-----------------------------------------------------------------------------------------
-- Addresses
-----------------------------------------------------------------------------------------

theorem counted?_of_lt {number : Nat} (below : number < 2 ^ 63) : counted? number = some number :=
  if_pos below

/-- An address is named in words if the place is within their range and every term moves it: no
number on the way is greater than the place. The induction is on the terms, with what is summed before
them.
-/
theorem Address.foldlM_exec {env : Counters} {address : Address}
    (strides : ∀ term ∈ address, 0 < term.stride ∧ term.stride < 2 ^ 63) {sum : Nat}
    (below : sum + address.eval env < 2 ^ 63)
    : address.foldlM (fun sum term => do counted? (sum + (← term.exec env))) sum
      = some (sum + address.eval env) := by
  induction address generalizing sum with
  | nil => rfl
  | cons term rest ih =>
      obtain ⟨⟨moves, stride⟩, others⟩ := List.forall_mem_cons.mp strides
      rw [eval, ← Nat.add_assoc] at below ⊢
      have most := Nat.le_mul_of_pos_right (env term.counter + term.offset) moves
      have own
          : term.exec env = some ((env term.counter + term.offset) * term.stride) := by
        rw [Term.exec, counted?_of_lt (by omega), counted?_of_lt stride]
        exact counted?_of_lt (by omega)
      rw [List.foldlM_cons, own]
      simp only [Option.bind_eq_bind, Option.bind_some]
      rw [counted?_of_lt (by omega), Option.bind_some]
      exact ih others below

/-- The address as it is printed is named in words. -/
theorem Address.exec_moving {env : Counters} {address : Address}
    (strides : ∀ term ∈ address, term.stride < 2 ^ 63) (below : address.eval env < 2 ^ 63)
    : address.moving.exec env = some (address.eval env) := by
  have moved : ∀ term ∈ address.moving, 0 < term.stride ∧ term.stride < 2 ^ 63 := by
    intro term member
    obtain ⟨listed, moves⟩ := List.mem_filter.mp member
    exact ⟨Nat.pos_of_ne_zero (by simpa using moves), strides term listed⟩
  rw [← eval_moving, ← Nat.zero_add (address.moving.eval env)] at below ⊢
  exact foldlM_exec moved below

-----------------------------------------------------------------------------------------
-- Strides
-----------------------------------------------------------------------------------------

/-- The strides of an expression. -/
def Expr.strides : Expr → List Nat
  | constant _ | draw .. => []
  | read _ address => address.map (·.stride)
  | unary _ operand => operand.strides
  | binary _ left right => left.strides ++ right.strides

/-- The strides of a statement. -/
def Stmt.strides : Stmt → List Nat
  | skip => []
  | seq first second => first.strides ++ second.strides
  | loop _ _ body => body.strides
  | store address value | fold _ address value => address.map (·.stride) ++ value.strides
  | startSum value => value.strides
  | addProduct left right => left.strides ++ right.strides
  | storeSum address => address.map (·.stride)

-----------------------------------------------------------------------------------------
-- Statements that have a meaning
-----------------------------------------------------------------------------------------

/-- With some counters and so many elements of output, a statement counts within the range of words
and stays inside the arrays.
-/
structure Stmt.Defined (sources : List (Array Pattern)) (size : Nat) (body : Stmt) (env : Counters)
    : Prop where
  bounds : Counted body.bounds
  strides : Counted body.strides
  writes : ∀ point ∈ body.points env, ∀ place ∈ point.writes, place < size
  reads
    : ∀ point ∈ body.points env, ∀ source place, (source, place) ∈ point.reads →
        ∃ cells, sources[source]? = some cells ∧ place < cells.size

section Meaning

variable {arith : Arithmetic} {dtype : DType} {sources : List (Array Pattern)} {size : Nat}
  {env : Counters}

namespace Stmt.Defined

theorem first {first second : Stmt} (whole : (seq first second).Defined sources size env)
    : first.Defined sources size env where
  bounds := (List.forall_mem_append.mp whole.bounds).1
  strides := (List.forall_mem_append.mp whole.strides).1
  writes := (List.forall_mem_append.mp whole.writes).1
  reads := (List.forall_mem_append.mp whole.reads).1

theorem second {first second : Stmt} (whole : (seq first second).Defined sources size env)
    : second.Defined sources size env where
  bounds := (List.forall_mem_append.mp whole.bounds).2
  strides := (List.forall_mem_append.mp whole.strides).2
  writes := (List.forall_mem_append.mp whole.writes).2
  reads := (List.forall_mem_append.mp whole.reads).2

theorem round {counter bound : Nat} {body : Stmt}
    (whole : (loop counter bound body).Defined sources size env) {value : Nat}
    (member : value ∈ List.range bound)
    : body.Defined sources size (env.set counter value) where
  bounds := (List.forall_mem_cons.mp whole.bounds).2
  strides := whole.strides
  writes := fun point listed => whole.writes point (List.mem_flatMap.mpr ⟨value, member, listed⟩)
  reads := fun point listed => whole.reads point (List.mem_flatMap.mpr ⟨value, member, listed⟩)

end Stmt.Defined

/-- What an address of an innermost statement names in words, if it is inside of the output. -/
theorem Memory.place?_moving {memory : Memory} {address : Address}
    (small : memory.out.size < 2 ^ 63) (strides : ∀ term ∈ address, term.stride < 2 ^ 63)
    (inside : address.eval env < memory.out.size)
    : memory.place? env address.moving = some (address.eval env) := by
  rw [place?, Address.exec_moving strides (inside.trans small)]
  exact if_pos inside

/-- An expression as it is printed has its value in words if all that it reads is inside of the
sources.
-/
theorem Expr.exec_printed (small : ∀ cells ∈ sources, cells.size < 2 ^ 63) {expr : Expr}
    (known : ∀ bits ∈ expr.constants, arith.constant dtype (dtype.narrowed bits)
      = arith.constant dtype bits)
    (strides : Counted expr.strides)
    (reads
      : ∀ source place, (source, place) ∈ expr.reads env →
          ∃ cells, sources[source]? = some cells ∧ place < cells.size)
    : (expr.printed dtype).exec arith dtype sources env
      = some (expr.eval arith dtype sources env) := by
  induction expr with
  | constant bits => exact congrArg some (known bits List.mem_cons_self)
  | draw => rfl
  | read source address =>
      obtain ⟨cells, found, inside⟩ := reads source (address.eval env) List.mem_cons_self
      have below := inside.trans (small cells (List.mem_of_getElem? found))
      have named := Address.exec_moving (List.forall_mem_map.mp strides) below
      rw [printed, exec, found, named, eval, List.getD_eq_getElem?_getD, found]
      simp [inside]
  | unary op operand ih =>
      rw [printed, exec, ih known strides reads]
      rfl
  | binary op left right ihLeft ihRight =>
      obtain ⟨knownLeft, knownRight⟩ := List.forall_mem_append.mp known
      obtain ⟨stridesLeft, stridesRight⟩ := List.forall_mem_append.mp strides
      have inLeft := ihLeft knownLeft stridesLeft fun source place read =>
        reads source place (List.mem_append_left _ read)
      have inRight := ihRight knownRight stridesRight fun source place read =>
        reads source place (List.mem_append_right _ read)
      rw [printed, exec, inLeft, inRight]
      rfl

/-- Statements one after the other, by induction on the statements. -/
theorem Stmt.exec_ofList (list : List Stmt) (memory : Memory)
    : (ofList list).exec arith dtype sources env memory
      = list.foldlM (fun memory body => body.exec arith dtype sources env memory) memory := by
  induction list generalizing memory with
  | nil => rfl
  | cons body others ih =>
      rw [List.foldlM_cons]
      cases others with
      | nil => simp [ofList]
      | cons => exact congrArg (Option.bind _) (funext ih)

/-- Rounds that end are a fold, if none of them changes the number of elements. The induction is on
the values of the counter.
-/
theorem foldlM_rounds {step : Memory → Nat → Option Memory} {next : Memory → Nat → Memory}
    {values : List Nat} {memory : Memory}
    (kept : ∀ memory value, (next memory value).out.size = memory.out.size)
    (each
      : ∀ value ∈ values, ∀ other : Memory, other.out.size = memory.out.size →
          step other value = some (next other value))
    : values.foldlM step memory = some (values.foldl next memory) := by
  induction values generalizing memory with
  | nil => rfl
  | cons value rest ih =>
      obtain ⟨own, others⟩ := List.forall_mem_cons.mp each
      rw [List.foldlM_cons, own memory rfl, List.foldl_cons]
      refine ih fun later member other same => ?_
      exact others later member other (same.trans (kept memory value))

/-- A statement that is defined does in words what it does with numbers of any size, by induction on
the statement.
-/
theorem Stmt.exec_printed (small : ∀ cells ∈ sources, cells.size < 2 ^ 63) {body : Stmt}
    (known : ∀ bits ∈ body.constants, arith.constant dtype (dtype.narrowed bits)
      = arith.constant dtype bits)
    {memory : Memory} (few : memory.out.size < 2 ^ 63)
    (defined : body.Defined sources memory.out.size env)
    : (body.printed dtype).exec arith dtype sources env memory
      = some (body.run arith dtype sources env memory) := by
  induction body generalizing env memory with
  | skip => rfl
  | seq first second ihFirst ihSecond =>
      obtain ⟨knownFirst, knownSecond⟩ := List.forall_mem_append.mp known
      have size : (first.run arith dtype sources env memory).out.size = memory.out.size :=
        size_run first env memory
      have inFirst := ihFirst knownFirst few defined.first
      have inSecond := ihSecond knownSecond (size ▸ few) (size ▸ defined.second)
      rw [printed, exec_ofList] at inFirst inSecond
      rw [printed, exec_ofList, steps, List.foldlM_append, inFirst]
      exact inSecond
  | loop counter bound body ih =>
      have counts : bound < 2 ^ 63 := defined.bounds bound List.mem_cons_self
      rw [run, fold_eq_foldl
        (fun value memory => body.run arith dtype sources (env.set counter value) memory)]
      refine (if_pos counts).trans (foldlM_rounds (fun _ _ => size_run _ _ _) ?_)
      intro value member other same
      exact ih known (same ▸ few) (same ▸ defined.round member)
  | store address value =>
      have own : (⟨.store address value, env⟩ : Point) ∈ (store address value).points env :=
        List.mem_cons_self
      obtain ⟨moved, others⟩ := List.forall_mem_append.mp defined.strides
      have place :=
        Memory.place?_moving few (List.forall_mem_map.mp moved)
          (defined.writes _ own _ List.mem_cons_self)
      have value := Expr.exec_printed small known others (defined.reads _ own)
      simp [printed, steps, line, ofList, exec, place, value, run]
  | fold op address value =>
      have own : (⟨.fold op address value, env⟩ : Point) ∈ (fold op address value).points env :=
        List.mem_cons_self
      obtain ⟨moved, others⟩ := List.forall_mem_append.mp defined.strides
      have place :=
        Memory.place?_moving few (List.forall_mem_map.mp moved)
          (defined.writes _ own _ List.mem_cons_self)
      have value := Expr.exec_printed small known others (defined.reads _ own)
      simp [printed, steps, line, ofList, exec, place, value, run]
  | startSum value =>
      have own : (⟨.startSum value, env⟩ : Point) ∈ (startSum value).points env :=
        List.mem_cons_self
      have value := Expr.exec_printed small known defined.strides (defined.reads _ own)
      simp [printed, steps, line, ofList, exec, value, run]
  | addProduct left right =>
      have own : (⟨.addProduct left right, env⟩ : Point) ∈ (addProduct left right).points env :=
        List.mem_cons_self
      obtain ⟨knownLeft, knownRight⟩ := List.forall_mem_append.mp known
      obtain ⟨stridesLeft, stridesRight⟩ := List.forall_mem_append.mp defined.strides
      have left := Expr.exec_printed small knownLeft stridesLeft fun source place read =>
        defined.reads _ own source place (List.mem_append_left _ read)
      have right := Expr.exec_printed small knownRight stridesRight fun source place read =>
        defined.reads _ own source place (List.mem_append_right _ read)
      simp [printed, steps, line, ofList, exec, left, right, run]
  | storeSum address =>
      have own : (⟨.storeSum address, env⟩ : Point) ∈ (storeSum address).points env :=
        List.mem_cons_self
      have place :=
        Memory.place?_moving few (List.forall_mem_map.mp defined.strides)
          (defined.writes _ own _ List.mem_cons_self)
      simp [printed, steps, line, ofList, exec, place, run]

/-- A statement all of whose loops have rounds has an outcome in words only if they all count within
the range, by induction on the statement.
-/
theorem Stmt.bounds_of_exec {body : Stmt} (busy : ∀ bound ∈ body.bounds, 0 < bound)
    {memory done : Memory} (ends : body.exec arith dtype sources env memory = some done)
    : Counted body.bounds := by
  induction body generalizing env memory done with
  | seq first second ihFirst ihSecond =>
      obtain ⟨busyFirst, busySecond⟩ := List.forall_mem_append.mp busy
      obtain ⟨between, inFirst, inSecond⟩ := Option.bind_eq_some_iff.mp ends
      exact List.forall_mem_append.mpr
        ⟨ihFirst busyFirst inFirst, ihSecond busySecond inSecond⟩
  | loop counter bound body ih =>
      obtain ⟨rounds, busyBody⟩ := List.forall_mem_cons.mp busy
      rw [exec] at ends
      split at ends
      · next counts =>
          obtain ⟨others, rfl⟩ := Nat.exists_eq_add_of_le' rounds
          rw [List.range_succ_eq_map, List.foldlM_cons] at ends
          obtain ⟨between, inBody, _⟩ := Option.bind_eq_some_iff.mp ends
          exact List.forall_mem_cons.mpr ⟨counts, ih busyBody inBody⟩
      · cases ends
  | skip | store | fold | startSum | addProduct | storeSum => exact fun _ member => nomatch member

/-- A function that is defined has an outcome in words, which is the one with numbers of any size. -/
theorem Routine.exec_eq_some {routine : Routine} {body : Stmt}
    (same : routine.body = body.printed routine.dtype) {out : Array Pattern}
    (few : ∀ cells ∈ out :: sources, cells.size < 2 ^ 63)
    (known
      : ∀ bits ∈ body.constants,
          arith.constant routine.dtype (routine.dtype.narrowed bits)
            = arith.constant routine.dtype bits)
    (defined : body.Defined sources out.size (fun _ => 0))
    : routine.exec arith out sources = some (routine.apply arith out sources) := by
  obtain ⟨own, others⟩ := List.forall_mem_cons.mp few
  have start : (⟨out, 0⟩ : Memory).out.size < 2 ^ 63 := own
  rw [exec, apply, Stmt.apply_eq, same, Stmt.exec_printed others known start defined,
    Stmt.run_printed known]
  rfl

end Meaning

end Kernel

end LazyTensor
