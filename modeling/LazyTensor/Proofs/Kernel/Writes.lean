import LazyTensor.Proofs.Kernel.Points

/-! What kernels leave in their output. A nest around a statement that writes one place takes one
number after the other into each place, in the order of the indices that lead there; a place
that a single index leads to holds the number of that index.
-/

namespace LazyTensor.Kernel

/-- The output after each item has changed the number at its place. -/
def scatter {α : Type} (place : α → Nat) (step : α → Pattern → Pattern) (items : List α)
    (out : Array Pattern) : Array Pattern :=
  items.foldl
    (fun out item => out.setIfInBounds (place item) (step item (out.getD (place item) 0))) out

variable {α : Type} {place : α → Nat} {step : α → Pattern → Pattern} {items : List α}

/-- Each place has gone through the changes of its items in order, by induction on the items. -/
theorem getElem?_scatter (out : Array Pattern) (target : Nat)
    : (scatter place step items out)[target]?
      = out[target]?.map fun start =>
          (items.filter (place · = target)).foldl (fun total item => step item total) start := by
  induction items generalizing out with
  | nil => simp [scatter]
  | cons item rest ih =>
      have next (out : Array Pattern)
          : scatter place step (item :: rest) out
            = scatter place step rest
                (out.setIfInBounds (place item) (step item (out.getD (place item) 0))) :=
        rfl
      rw [next, ih, Array.getElem?_setIfInBounds]
      by_cases same : place item = target
      · subst same
        by_cases inside : place item < out.size
        · simp [inside]
        · simp [inside]
      · simp [same]

section

variable {arith : Arithmetic} {dtype : DType} {sources : List (Array Pattern)}

/-- No statement changes the number of elements, by induction on the statement. -/
theorem size_run (body : Stmt) (env : Counters) (memory : Memory)
    : (body.run arith dtype sources env memory).out.size = memory.out.size := by
  induction body generalizing env memory with
  | seq first second ihFirst ihSecond => rw [Stmt.run, ihSecond, ihFirst]
  | loop counter bound body ih =>
      rw [Stmt.run, fold_eq_foldl
        (fun value memory => body.run arith dtype sources (env.set counter value) memory)]
      generalize List.range bound = values
      induction values generalizing memory with
      | nil => rfl
      | cons value rest ihValues => rw [List.foldl_cons, ihValues, ih]
  | store | fold | storeSum => exact Array.size_setIfInBounds
  | skip | startSum | addProduct => rfl

theorem size_apply (body : Stmt) (out : Array Pattern)
    : (body.apply arith dtype out sources).size = out.size := by
  rw [Stmt.apply_eq, size_run]

/-- A statement changes one place and leaves there a number that depends on the counters and on
what was there.
-/
def Stmt.WritesAt (arith : Arithmetic) (dtype : DType) (sources : List (Array Pattern))
    (body : Stmt) (address : Counters → Nat) (value : Counters → Pattern → Pattern)
    : Prop :=
  ∀ (env : Counters) (memory : Memory),
    (body.run arith dtype sources env memory).out
      = memory.out.setIfInBounds (address env) (value env (memory.out.getD (address env) 0))

theorem writesAt_store (address : Address) (value : Expr)
    : (Stmt.store address value).WritesAt arith dtype sources address.eval
        (fun env _ => value.eval arith dtype sources env) :=
  fun _ _ => rfl

theorem writesAt_fold (op : Reduction) (address : Address) (value : Expr)
    : (Stmt.fold op address value).WritesAt arith dtype sources address.eval
        (fun env total =>
          arith.binary dtype op.step total (value.eval arith dtype sources env)) :=
  fun _ _ => rfl

variable {body : Stmt} {address : Counters → Nat} {value : Counters → Pattern → Pattern}

/-- What a product of matrices leaves at a cell is the sum along the shared dimension, which
starts from zero.
-/
theorem writesAt_cellProduct (left right : Layout) (inner columns : Nat)
    : (cellProduct left right inner columns).WritesAt arith dtype sources
        (strided [0, 1] [columns, 1]).eval
        (fun env _ =>
          (List.range inner).foldl
            (fun total place =>
              arith.binary dtype .add total
                (arith.binary dtype .mul
                  ((Expr.read 0 (strided [0, 2] left.strides)).eval arith dtype sources
                    (env.set 2 place))
                  ((Expr.read 1 (strided [2, 1] right.strides)).eval arith dtype sources
                    (env.set 2 place))))
            (arith.constant dtype Spelling.zero)) := by
  intro env memory
  have products (places : List Nat) (memory : Memory)
      : places.foldl
            (fun memory place =>
              (Stmt.addProduct (.read 0 (strided [0, 2] left.strides))
                (.read 1 (strided [2, 1] right.strides))).run arith dtype sources
                (env.set 2 place) memory)
            memory
          = { memory with
              sum :=
                places.foldl
                  (fun total place =>
                    arith.binary dtype .add total
                      (arith.binary dtype .mul
                        ((Expr.read 0 (strided [0, 2] left.strides)).eval arith dtype sources
                          (env.set 2 place))
                        ((Expr.read 1 (strided [2, 1] right.strides)).eval arith dtype sources
                          (env.set 2 place))))
                  memory.sum } := by
    induction places generalizing memory with
    | nil => rfl
    | cons place rest ih => exact ih _
  simp only [cellProduct, Stmt.run]
  rw [fold_eq_foldl]
  exact congrArg (fun memory : Memory => memory.out.setIfInBounds _ memory.sum) (products _ _)

/-- A nest around such a statement takes one number after the other into each place, in the order
of the indices that lead there.
-/
theorem getElem?_nest (writes : body.WritesAt arith dtype sources address value) {first : Nat}
    {shape : Shape} {env : Counters} (memory : Memory) {place : Index → Nat}
    (leads : ∀ index, shape.Holds index → address (env.assign first index) = place index)
    (target : Nat)
    : ((nest first shape body).run arith dtype sources env memory).out[target]?
      = memory.out[target]?.map fun start =>
          (shape.indices.filter (place · = target)).foldl
            (fun total index => value (env.assign first index) total) start := by
  have all
      : ((nest first shape body).run arith dtype sources env memory).out
        = scatter (fun index => address (env.assign first index))
            (fun index => value (env.assign first index)) shape.indices memory.out := by
    rw [run_nest, scatter]
    refine (List.foldl_hom Memory.out ?_).symm
    intro memory index
    exact (writes _ memory).symm
  have same
      : shape.indices.filter (fun index => address (env.assign first index) = target)
        = shape.indices.filter (place · = target) := by
    refine List.filter_congr ?_
    intro index member
    rw [leads index (Shape.mem_indices.mp member)]
  rw [all, getElem?_scatter, same]

/-- A place of a nest to which a single index leads has gone through one change. -/
theorem getElem?_nest_of_single (writes : body.WritesAt arith dtype sources address value)
    {first : Nat} {shape : Shape} {env : Counters} {memory : Memory} {place : Index → Nat}
    (leads : ∀ index, shape.Holds index → address (env.assign first index) = place index)
    {index : Index} (held : shape.Holds index)
    (single : ∀ other, shape.Holds other → place other = place index → other = index)
    : ((nest first shape body).run arith dtype sources env memory).out[place index]?
      = memory.out[place index]?.map (value (env.assign first index)) := by
  have own : shape.indices.filter (place · = place index) = [index] := by
    refine Shape.filter_of_single shape.nodup_indices (Shape.mem_indices.mpr held) ?_
    intro other member
    exact decide_eq_true_iff.trans
      ⟨single other (Shape.mem_indices.mp member), fun same => same ▸ rfl⟩
  rw [getElem?_nest writes memory leads, own]
  rfl

/-- A place of a nest to which no index leads stays as it was. -/
theorem getElem?_nest_of_none (writes : body.WritesAt arith dtype sources address value)
    {first : Nat} {shape : Shape} {env : Counters} {memory : Memory} {place : Index → Nat}
    (leads : ∀ index, shape.Holds index → address (env.assign first index) = place index)
    {target : Nat} (untouched : ∀ index, shape.Holds index → place index ≠ target)
    : ((nest first shape body).run arith dtype sources env memory).out[target]?
      = memory.out[target]? := by
  have none : shape.indices.filter (place · = target) = [] := by
    refine List.filter_eq_nil_iff.mpr ?_
    intro index member
    simpa using untouched index (Shape.mem_indices.mp member)
  rw [getElem?_nest writes memory leads, none]
  simp

/-- A flat loop writes its value at each counter. -/
theorem getElem?_fillFlat {count : Nat} {value : Expr} {env : Counters} {memory : Memory}
    {target : Nat} (below : target < count)
    : ((fillFlat count value).run arith dtype sources env memory).out[target]?
      = memory.out[target]?.map fun _ => value.eval arith dtype sources (env.set 0 target) := by
  have leads (index : Index) (held : Shape.Holds [count] index)
      : flatAddress.eval (env.assign 0 index) = index.getD 0 0 := by
    obtain ⟨place, rest, rfl, _, empty⟩ := held.exists_cons
    obtain rfl := Shape.holds_nil.mp empty
    exact eval_flatAddress _
  have single (other : Index) (held : Shape.Holds [count] other)
      (same : other.getD 0 0 = [target].getD 0 0)
      : other = [target] := by
    obtain ⟨place, rest, rfl, _, empty⟩ := held.exists_cons
    obtain rfl := Shape.holds_nil.mp empty
    exact congrArg (fun place => [place]) same
  have held : Shape.Holds [count] [target] := by simpa using below
  exact getElem?_nest_of_single (writesAt_store flatAddress value) leads held single

end

end LazyTensor.Kernel
