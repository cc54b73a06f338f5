import LazyTensor.Kernel.Arithmetic
import LazyTensor.Kernel.Program

/-! What a kernel program does to memory. The meaning is given for any arithmetic. A read
outside a source gives zero and a write outside the output is dropped, so a program has a
meaning on arrays of any size.
-/

namespace LazyTensor.Kernel

/-- The values of the loop counters. -/
abbrev Counters := Nat → Nat

/-- The counters with one of them set. -/
def Counters.set (env : Counters) (counter value : Nat) : Counters :=
  fun other => if other = counter then value else env other

/-- The place that an address names. -/
def Address.eval (env : Counters) : Address → Nat
  | [] => 0
  | term :: rest => (env term.counter + term.offset) * term.stride + eval env rest

/-- The output and the local sum. -/
structure Memory where
  out : Array Pattern
  sum : Pattern
deriving DecidableEq, Repr

/-- The number of an expression. -/
def Expr.eval (arith : Arithmetic) (dtype : DType) (sources : List (Array Pattern))
    (env : Counters) : Expr → Pattern
  | constant bits => arith.constant dtype bits
  | draw seed counter => arith.draw dtype seed (.ofNat (env counter))
  | read source address => (sources.getD source #[]).getD (address.eval env) 0
  | unary op operand => arith.unary dtype op (operand.eval arith dtype sources env)
  | binary op left right =>
      arith.binary dtype op (left.eval arith dtype sources env)
        (right.eval arith dtype sources env)

/-- Runs a statement. -/
def Stmt.run (arith : Arithmetic) (dtype : DType) (sources : List (Array Pattern)) :
    Stmt → Counters → Memory → Memory
  | skip, _, memory => memory
  | seq first second, env, memory =>
      second.run arith dtype sources env (first.run arith dtype sources env memory)
  | loop counter bound body, env, memory =>
      bound.fold
        (fun value _ memory => body.run arith dtype sources (env.set counter value) memory) memory
  | store address value, env, memory =>
      let ⟨out, sum⟩ := memory
      ⟨out.setIfInBounds (address.eval env) (value.eval arith dtype sources env), sum⟩
  | fold op address value, env, memory =>
      let ⟨out, sum⟩ := memory
      let place := address.eval env
      let total := arith.binary dtype op.step (out.getD place 0)
        (value.eval arith dtype sources env)
      ⟨out.setIfInBounds place total, sum⟩
  | startSum value, env, memory => { memory with sum := value.eval arith dtype sources env }
  | addProduct left right, env, memory =>
      let product := arith.binary dtype .mul (left.eval arith dtype sources env)
        (right.eval arith dtype sources env)
      { memory with sum := arith.binary dtype .add memory.sum product }
  | storeSum address, env, memory =>
      let ⟨out, sum⟩ := memory
      ⟨out.setIfInBounds (address.eval env) sum, sum⟩

/-- The constants of an expression. -/
def Expr.constants : Expr → List UInt64
  | constant bits => [bits]
  | draw .. | read .. => []
  | unary _ operand => operand.constants
  | binary _ left right => left.constants ++ right.constants

/-- The constants of a statement. -/
def Stmt.constants : Stmt → List UInt64
  | skip | storeSum _ => []
  | seq first second => first.constants ++ second.constants
  | loop _ _ body => body.constants
  | store _ value | fold _ _ value | startSum value => value.constants
  | addProduct left right => left.constants ++ right.constants

/-- The statement without the loops that do nothing, which are those without a round and those
around nothing.
-/
def Stmt.prune : Stmt → Stmt
  | seq first second =>
      match first.prune, second.prune with
      | skip, body | body, skip => body
      | before, after => seq before after
  | loop counter bound body =>
      match bound, body.prune with
      | 0, _ | _, skip => skip
      | bound, busy => loop counter bound busy
  | other => other

/-- The output after a kernel has run over it. Idle loops are left out and constants are worked
out once, neither of which changes the outcome.
-/
def Stmt.apply (arith : Arithmetic) (dtype : DType) (body : Stmt) (out : Array Pattern)
    (sources : List (Array Pattern)) : Array Pattern :=
  let ready := body.constants.foldl (Arithmetic.remember dtype) arith
  (body.prune.run ready dtype sources (fun _ => 0) ⟨out, 0⟩).out

/-- Rounds that change nothing leave what was there. -/
theorem fold_idle {α : Type} (rounds : Nat) (start : α) :
    rounds.fold (fun _ _ state => state) start = start := by
  induction rounds with
  | zero => rfl
  | succ _ ih => exact ih

/-- What a statement does without its idle loops is what it does with them. -/
theorem Stmt.run_prune (arith : Arithmetic) (dtype : DType) (sources : List (Array Pattern))
    (body : Stmt) (env : Counters) (memory : Memory) :
    body.prune.run arith dtype sources env memory = body.run arith dtype sources env memory := by
  induction body generalizing env memory with
  | seq first second hf hs =>
      simp only [run, ← hf, ← hs]
      simp only [prune]
      split <;> simp_all [run]
  | loop counter bound body ih =>
      simp only [run, ← ih]
      simp only [prune]
      split <;> simp_all [run, fold_idle]
  | _ => rfl

/-- The output of a kernel is what its statement leaves. -/
theorem Stmt.apply_eq (arith : Arithmetic) (dtype : DType) (body : Stmt) (out : Array Pattern)
    (sources : List (Array Pattern)) :
    body.apply arith dtype out sources
      = (body.run arith dtype sources (fun _ => 0) ⟨out, 0⟩).out := by
  have ready (words : List UInt64) : words.foldl (Arithmetic.remember dtype) arith = arith := by
    induction words with
    | nil => rfl
    | cons word _ ih => rw [List.foldl_cons, Arithmetic.remember_eq, ih]
  simp only [apply, ready, run_prune]

end LazyTensor.Kernel
