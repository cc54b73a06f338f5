import LazyTensor.Kernel.SourceUnit
import LazyTensor.Proofs.Kernel.Name
import LazyTensor.Proofs.Schedule.Contract

/-! Tasks of schedules and their kernels. The operation, the sources and the target of such a
task fit each other in one of a few ways, and each of them has a kernel.
-/

namespace LazyTensor

open Kernel

theorem Buffer.shape_of_dense {buffer : Buffer} {shape : Shape}
    (dense : buffer.layout = .dense shape)
    : buffer.shape = shape := by
  rw [Buffer.shape, dense, Layout.shape_dense]

/-- A task whose parts fit each other, with its kernel. -/
inductive Task.Runs : Task → Stmt → Prop
  | empty (target : Buffer) (dense : target.layout = .dense target.shape)
    : Runs ⟨⟨.fill .empty, [], none⟩, target, []⟩
        (fillFlat target.layout.physicalSize (.constant Spelling.zero))
  | constant (target : Buffer) (bits : UInt64) (dense : target.layout = .dense target.shape)
    : Runs ⟨⟨.fill .constant, [], some (.value bits)⟩, target, []⟩
        (fillFlat target.layout.physicalSize (.constant bits))
  | random (target : Buffer) (seed : UInt64) (dense : target.layout = .dense target.shape)
    : Runs ⟨⟨.fill .random, [], some (.seed seed)⟩, target, []⟩
        (fillFlat target.layout.physicalSize (.draw seed 0))
  | unary (op : UnaryMap) (source target : Buffer) (kept : target.layout = source.layout)
    : Runs ⟨⟨.unary op, [source.source], none⟩, target, [source]⟩ (mapKernel op source.layout)
  | binary (op : BinaryMap) (left right target : Buffer) (elementwise : op ≠ .matmul)
    (same : right.shape = left.shape) (dense : target.layout = .dense left.shape)
    : Runs ⟨⟨.binary op, [left.source, right.source], none⟩, target, [left, right]⟩
        (zipKernel op left.layout right.layout)
  | matmul (left right target : Buffer) {rows inner columns : Nat}
    (leftShape : left.shape = [rows, inner]) (rightShape : right.shape = [inner, columns])
    (dense : target.layout = .dense [rows, columns])
    : Runs ⟨⟨.binary .matmul, [left.source, right.source], none⟩, target, [left, right]⟩
        (matmulKernel left.layout right.layout)
  | reduce (op : Reduction) (source target : Buffer) {axis : Nat} (inside : axis < source.rank)
    (dense : target.layout = .dense (source.shape.dropAxis axis))
    : Runs ⟨⟨.reduce op, [source.source], some (.axis axis)⟩, target, [source]⟩
        (reduceKernel op axis source.layout target.shape)
  | permute (source target : Buffer) {order : List Nat}
    (accepted : isPermutation order source.rank = true)
    (dense : target.layout = .dense (Buffer.permutedShape source.shape order))
    : Runs ⟨⟨.movement .permute, [source.source], some (.order order)⟩, target, [source]⟩
        (permuteKernel order source.layout target.shape)
  | pad (source target : Buffer) {padding : List (Nat × Nat)}
    (length : padding.length = source.rank)
    (padded : Buffer.paddedShape source.shape padding = some target.shape)
    (dense : target.layout = .dense target.shape)
    : Runs ⟨⟨.movement .pad, [source.source], some (.padding padding)⟩, target, [source]⟩
        (padKernel padding source.layout target.shape)

/-- A task with its kernel, where all layouts follow the rules and all element types agree. -/
structure Task.Fits (task : Task) (program : Stmt) : Prop where
  runs : task.Runs program
  dtypes : ∀ source ∈ task.sources, source.dtype = task.target.dtype
  target : task.target.layout.WellFormed
  sources : ∀ source ∈ task.sources, source.layout.WellFormed

-----------------------------------------------------------------------------------------
-- Tasks of schedules fit
-----------------------------------------------------------------------------------------

/-- The task of an operation that fits its kind has a kernel. -/
theorem Operation.Yields.runs {operation : Operation} {layout : Layout}
    (yields : operation.Yields layout) (graph : Graph) (position : Nat) (dtype : DType)
    : ∃ program,
        Task.Runs
          ⟨operation, ⟨graph.id, position, dtype, layout⟩,
            operation.sources.map graph.sourceView⟩
          program := by
  cases yields with
  | empty => exact ⟨_, .empty _ rfl⟩
  | constant bits => exact ⟨_, .constant _ bits rfl⟩
  | random seed => exact ⟨_, .random _ seed rfl⟩
  | unary op source => exact ⟨_, .unary op (graph.sourceView source) _ rfl⟩
  | binary op left right elementwise same =>
      exact ⟨_, .binary op (graph.sourceView left) (graph.sourceView right) _ elementwise same rfl⟩
  | matmul left right leftShape rightShape =>
      exact ⟨_, .matmul (graph.sourceView left) (graph.sourceView right) _ leftShape rightShape rfl⟩
  | reduce op source inside => exact ⟨_, .reduce op (graph.sourceView source) _ inside rfl⟩
  | permute source accepted => exact ⟨_, .permute (graph.sourceView source) _ accepted rfl⟩
  | pad source length padded => exact ⟨_, .pad (graph.sourceView source) _ length padded rfl⟩

/-- The task of a node that is made by an operation fits. -/
theorem Graph.WellFormed.task_fits {graph : Graph} (wf : graph.WellFormed) {position : Nat}
    {node : Node} {operation : Operation} (found : graph.nodes[position]? = some node)
    (made : node.producer = some operation)
    : ∃ program, (graph.task position node operation).Fits program := by
  have nodeWf := wf position node found
  obtain ⟨program, runs⟩ := (nodeWf.yields operation made).runs graph position node.dtype
  have reads := nodeWf.reads operation made
  refine ⟨program, runs, ?_, nodeWf.layout, ?_⟩
  · intro source member
    obtain ⟨recorded, inside, rfl⟩ := List.mem_map.mp member
    exact (reads recorded inside).sourceView_in.2
  · intro source member
    obtain ⟨recorded, inside, rfl⟩ := List.mem_map.mp member
    exact (reads recorded inside).1

/-- A task of a schedule is the task of a node that waits. -/
theorem Schedule.Contract.exists_waits {graph : Graph} {root : Nat} {schedule : Schedule}
    (contract : Schedule.Contract graph root schedule) {task : Task} (member : task ∈ schedule)
    : ∃ node operation,
        graph.Waits task.target.node node operation
        ∧ task = graph.task task.target.node node operation := by
  obtain ⟨node, found, made⟩ := contract.operation task member
  have target := contract.target task member
  have sources := contract.sources task member
  have pending := ((contract.targets task.target.node).mp (List.mem_map_of_mem member)).2
  rw [Graph.nodeView, found, Option.map_some, Option.some.injEq] at target
  rw [Graph.isComputed, found] at pending
  refine ⟨node, task.operation, ⟨found, pending, made⟩, ?_⟩
  rw [Graph.task, target, ← sources]

theorem Schedule.Contract.fits {graph : Graph} {root : Nat} {schedule : Schedule}
    (contract : Schedule.Contract graph root schedule) (wf : graph.WellFormed) {task : Task}
    (member : task ∈ schedule)
    : ∃ program, task.Fits program := by
  obtain ⟨node, operation, waits, same⟩ := contract.exists_waits member
  rw [same]
  exact wf.task_fits waits.found waits.made

-----------------------------------------------------------------------------------------
-- Lowering and rendering
-----------------------------------------------------------------------------------------

theorem Task.Runs.arity {task : Task} {program : Stmt} (runs : task.Runs program)
    : task.sources.length = task.kind.arity := by
  cases runs <;> rfl

/-- A task that runs carries an argument that its kind takes. -/
theorem Task.Runs.takes {task : Task} {program : Stmt} (runs : task.Runs program)
    : task.kind.Takes task.operation.argument := by
  cases runs with
  | empty => exact .empty
  | constant target bits => exact .constant bits
  | random target seed => exact .random seed
  | unary op => exact .unary op
  | binary op => exact .binary op
  | matmul => exact .binary .matmul
  | reduce op => exact .reduce op _
  | permute => exact .permute _
  | pad => exact .pad _

theorem Task.namesAxes_of_isPermutation {task : Task} {order : List Nat} {source : Buffer}
    (accepted : isPermutation order source.rank = true)
    : task.namesAxes order source = true := by
  rw [namesAxes, List.all_eq_true]
  intro axis member
  have inside := (isPermutation_iff.mp accepted).mem_iff.mp (List.mem_of_mem_take member)
  exact decide_eq_true (List.mem_range.mp inside)

/-- A task that fits is lowered to its kernel. -/
theorem Task.Fits.lower_eq {task : Task} {program : Stmt} (fits : task.Fits program)
    : task.lower = .ok program := by
  have mixed : task.mixedSource? = none := by
    refine List.find?_eq_none.mpr ?_
    intro source member
    simp [fits.dtypes source member]
  rw [lower, if_pos fits.runs.arity, mixed]
  have runs := fits.runs
  cases runs with
  | empty => rfl
  | constant => rfl
  | random => rfl
  | unary => rfl
  | binary op left right target elementwise =>
      cases op with
      | matmul => exact absurd rfl elementwise
      | _ => rfl
  | matmul left right target leftShape rightShape =>
      have leftRank : left.rank = 2 := congrArg List.length leftShape
      have rightRank : right.rank = 2 := congrArg List.length rightShape
      exact if_pos ⟨leftRank.ge, rightRank.ge⟩
  | reduce => rfl
  | permute source target accepted => exact if_pos (namesAxes_of_isPermutation accepted)
  | pad => rfl

/-- Tasks that agree have the same kernel. Kernels read the current views of the sources, and all
but fills have a target shape that follows from these views and the argument.
-/
theorem Task.SameKernel.program_eq {left right : Task} {leftProgram rightProgram : Stmt}
    (same : left.SameKernel right) (leftRuns : left.Runs leftProgram)
    (rightRuns : right.Runs rightProgram)
    : leftProgram = rightProgram := by
  obtain ⟨kind, dtype, views, filled, argument⟩ := same
  simp only [Task.kind] at kind
  -- Kernels of other kinds are ruled out by the kind, so each case has one partner.
  cases leftRuns with
  | empty target dense =>
      cases rightRuns <;> cases kind
      · next other otherDense =>
          have shape : target.shape = other.shape := filled rfl
          rw [dense, otherDense, shape]
  | constant target bits dense =>
      cases rightRuns <;> cases kind
      · next other otherBits otherDense =>
          have shape : target.shape = other.shape := filled rfl
          cases argument
          rw [dense, otherDense, shape]
  | random target seed dense =>
      cases rightRuns <;> cases kind
      · next other otherSeed otherDense =>
          have shape : target.shape = other.shape := filled rfl
          cases argument
          rw [dense, otherDense, shape]
  | unary op source target kept =>
      cases rightRuns <;> cases kind
      · next other _ _ =>
          have view : source.layout.current = other.layout.current := (List.cons.inj views).1
          change mapKernel op ⟨source.layout.current, []⟩ = mapKernel op ⟨other.layout.current, []⟩
          rw [view]
  | binary op first second target elementwise =>
      cases rightRuns <;> cases kind
      · next first' second' _ _ _ _ =>
          obtain ⟨first_eq, rest⟩ := List.cons.inj views
          have view : first.layout.current = first'.layout.current := first_eq
          have view' : second.layout.current = second'.layout.current := (List.cons.inj rest).1
          change zipKernel op ⟨first.layout.current, []⟩ ⟨second.layout.current, []⟩
            = zipKernel op ⟨first'.layout.current, []⟩ ⟨second'.layout.current, []⟩
          rw [view, view']
      · exact absurd rfl elementwise
  | matmul first second target =>
      cases rightRuns <;> cases kind
      · exact absurd rfl ‹BinaryMap.matmul ≠ .matmul›
      · next first' second' _ _ _ _ _ _ _ =>
          obtain ⟨first_eq, rest⟩ := List.cons.inj views
          have view : first.layout.current = first'.layout.current := first_eq
          have view' : second.layout.current = second'.layout.current := (List.cons.inj rest).1
          change matmulKernel ⟨first.layout.current, []⟩ ⟨second.layout.current, []⟩
            = matmulKernel ⟨first'.layout.current, []⟩ ⟨second'.layout.current, []⟩
          rw [view, view']
  | @reduce op source target axis inside dense =>
      cases rightRuns <;> cases kind
      · next source' target' axis' inside' dense' =>
          have view : source.layout.current = source'.layout.current := (List.cons.inj views).1
          cases argument
          have sourceShape : source.shape = source'.shape := congrArg View.shape view
          have shapes : target.shape = target'.shape := by
            rw [Buffer.shape_of_dense dense, Buffer.shape_of_dense dense', sourceShape]
          change reduceKernel op axis ⟨source.layout.current, []⟩ target.shape
            = reduceKernel op axis ⟨source'.layout.current, []⟩ target'.shape
          rw [view, shapes]
  | @permute source target order accepted dense =>
      cases rightRuns <;> cases kind
      · next source' target' order' accepted' dense' =>
          have view : source.layout.current = source'.layout.current := (List.cons.inj views).1
          cases argument
          have sourceShape : source.shape = source'.shape := congrArg View.shape view
          have shapes : target.shape = target'.shape := by
            rw [Buffer.shape_of_dense dense, Buffer.shape_of_dense dense', sourceShape]
          change permuteKernel order ⟨source.layout.current, []⟩ target.shape
            = permuteKernel order ⟨source'.layout.current, []⟩ target'.shape
          rw [view, shapes]
  | @pad source target padding length padded dense =>
      cases rightRuns <;> cases kind
      · next source' target' padding' length' padded' dense' =>
          have view : source.layout.current = source'.layout.current := (List.cons.inj views).1
          cases argument
          have sourceShape : source.shape = source'.shape := congrArg View.shape view
          have shapes : target.shape = target'.shape := by
            rw [sourceShape] at padded
            exact Option.some.inj (padded.symm.trans padded')
          change padKernel padding ⟨source.layout.current, []⟩ target.shape
            = padKernel padding ⟨source'.layout.current, []⟩ target'.shape
          rw [view, shapes]

/-- The source unit of a task with a given kernel. -/
def Task.unit (task : Task) (program : Stmt) : SourceUnit where
  name := task.kernelName
  source :=
    "\n".intercalate
      (preamble task.kind
        ++ signature task.kernelName task.target.dtype task.sources.length
          :: program.lines task.target.dtype
        ++ ["\x7d", ""])
  arity := task.sources.length
  dtype := task.target.dtype

theorem Task.Fits.render_eq {task : Task} {program : Stmt} (fits : task.Fits program)
    : task.render = .ok (task.unit program) := by
  rw [render, fits.lower_eq]
  rfl

/-- Tasks that agree have the same source unit. -/
theorem Task.SameKernel.unit_eq {left right : Task} {leftProgram rightProgram : Stmt}
    (same : left.SameKernel right) (leftRuns : left.Runs leftProgram)
    (rightRuns : right.Runs rightProgram)
    : left.unit leftProgram = right.unit rightProgram := by
  have count : left.sources.length = right.sources.length := by
    rw [leftRuns.arity, rightRuns.arity, same.kind]
  rw [unit, unit, same.program_eq leftRuns rightRuns, same.kernelName_eq, same.kind, same.dtype,
    count]

/-- Tasks that fit have kernels of one name if and only if they agree, and then one source unit
stands for both.
-/
theorem Task.Fits.kernelName_iff {left right : Task} {leftProgram rightProgram : Stmt}
    (leftFits : left.Fits leftProgram) (rightFits : right.Fits rightProgram)
    : (left.kernelName = right.kernelName ↔ left.SameKernel right)
      ∧ (left.kernelName = right.kernelName →
        left.unit leftProgram = right.unit rightProgram) := by
  have agree (named : left.kernelName = right.kernelName) : left.SameKernel right :=
    Task.sameKernel_of_kernelName_eq leftFits.runs.arity rightFits.runs.arity
      leftFits.runs.takes rightFits.runs.takes named
  exact ⟨⟨agree, Task.SameKernel.kernelName_eq⟩,
    fun named => (agree named).unit_eq leftFits.runs rightFits.runs⟩

/-- The tasks of the schedules of all buffers on a desk fit. -/
theorem Desk.WellFormed.task_fits {desk : Desk} (wf : desk.WellFormed) {buffer : Buffer}
    (held : buffer ∈ desk.buffers) {schedule : Schedule}
    (scheduled : (desk.workspace.graph buffer.graph).schedule buffer.node = .ok schedule)
    {task : Task} (member : task ∈ schedule)
    : ∃ program, task.Fits program := by
  obtain ⟨made, scheduled', contract⟩ := wf.workspace.schedule_ok (wf.buffers buffer held)
  obtain rfl := Except.ok.inj (scheduled.symm.trans scheduled')
  exact contract.fits (wf.workspace buffer.graph).2 member

/-- On any two desks that callers can come to, tasks of schedules have kernels of one name if and
only if they agree in the kind of the operation, the element type, the views of the sources,
the shape that a fill writes and the argument; and then one source unit stands for both.
-/
theorem Desk.Reachable.kernelName_determines {first second : Desk} (reachedFirst : first.Reachable)
    (reachedSecond : second.Reachable) {left right : Buffer} (heldLeft : left ∈ first.buffers)
    (heldRight : right ∈ second.buffers) {leftSchedule rightSchedule : Schedule}
    (leftScheduled
      : (first.workspace.graph left.graph).schedule left.node = .ok leftSchedule)
    (rightScheduled
      : (second.workspace.graph right.graph).schedule right.node = .ok rightSchedule)
    {leftTask rightTask : Task} (leftMember : leftTask ∈ leftSchedule)
    (rightMember : rightTask ∈ rightSchedule)
    : (leftTask.kernelName = rightTask.kernelName ↔ leftTask.SameKernel rightTask)
      ∧ (leftTask.kernelName = rightTask.kernelName →
        ∃ unit, leftTask.render = .ok unit ∧ rightTask.render = .ok unit) := by
  obtain ⟨leftProgram, leftFits⟩ :=
    reachedFirst.wellFormed.task_fits heldLeft leftScheduled leftMember
  obtain ⟨rightProgram, rightFits⟩ :=
    reachedSecond.wellFormed.task_fits heldRight rightScheduled rightMember
  obtain ⟨agree, oneUnit⟩ := leftFits.kernelName_iff rightFits
  refine ⟨agree, ?_⟩
  intro named
  exact ⟨_, leftFits.render_eq, by rw [rightFits.render_eq, oneUnit named]⟩

/-- The rows of a sample negated as a given node. -/
def Desk.negation (node : Nat) : Task where
  operation := ⟨.unary .neg, [sampleRows.source], none⟩
  target := { sampleRows with node := node }
  sources := [sampleRows]

/-- The row of a sample. -/
def Desk.ones : Task where
  operation := ⟨.fill .constant, [], some (.value 0x3FF0000000000000)⟩
  target := sampleRow
  sources := []

/-- The columns of a sample summed. -/
def Desk.sums : Task where
  operation := ⟨.reduce .sum, [sampleNegated.source], some (.axis 0)⟩
  target := sampleSums
  sources := [sampleNegated]

/-- Rows that are negated on two desks, as different nodes, have one kernel. -/
theorem Desk.kernelName_determines_sample
    : (Desk.negation 1).kernelName = (Desk.negation 3).kernelName
      ∧ ∃ unit,
          (Desk.negation 1).render = .ok unit ∧ (Desk.negation 3).render = .ok unit := by
  have again : (sample.call sampleCalls[2]).Reachable :=
    .step reachable_sample (.call _ _ (by decide) (by decide))
  have first
      : (sample.workspace.graph sampleSums.graph).schedule sampleSums.node
        = .ok [ones, negation 1, sums] := by
    rfl
  have second
      : ((sample.call sampleCalls[2]).workspace.graph 0).schedule 3 = .ok [ones, negation 3] := by
    rfl
  have held : sampleSums ∈ sample.buffers := by decide
  have heldAgain : (negation 3).target ∈ (sample.call sampleCalls[2]).buffers := by decide
  have listed : negation 1 ∈ [ones, negation 1, sums] := by decide
  have listedAgain : negation 3 ∈ [ones, negation 3] := by decide
  have determined :=
    reachable_sample.kernelName_determines again held heldAgain first second listed listedAgain
  have named := determined.1.mpr ⟨rfl, rfl, rfl, fun _ => rfl, rfl⟩
  exact ⟨named, determined.2 named⟩

end LazyTensor
