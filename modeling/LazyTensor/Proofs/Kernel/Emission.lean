import LazyTensor.Proofs.Kernel.Tiling

/-! Kernels of operations on one array. A builder that is asked for one records it, and the schedule
of its answer ends with the task of this operation, which is rendered. What the text says that a fold
leaves is said here of every view that a buffer can be, and also when it has no outcome in words.
-/

namespace LazyTensor

open Kernel

/-- A recorded source that a buffer is shows the buffer. -/
theorem Buffer.In.sourceView_source {graph : Graph} {buffer : Buffer} (held : buffer.In graph)
    : graph.sourceView buffer.source = buffer := by
  obtain ⟨own, _, node, found, type, _⟩ := held
  have found : graph.nodes[buffer.node]? = some node := found
  rw [Graph.sourceView, Buffer.source, Graph.dtype, found, ← own]
  exact congrArg (fun dtype => (⟨buffer.graph, buffer.node, dtype, buffer.layout⟩ : Buffer)) type

namespace Desk

/-- The schedule of a buffer ends with the task of its node, and the task is rendered to a text that is
read as a function.
-/
def Emits (desk : Desk) (buffer : Buffer) (routine : Routine) : Prop :=
  ∃ schedule task unit,
    (desk.workspace.graph buffer.graph).schedule buffer.node = .ok schedule
    ∧ schedule.getLast? = some task
    ∧ task.target = buffer
    ∧ task.render = .ok unit
    ∧ Routine.read unit.source = some routine

variable {desk : Desk}

theorem WellFormed.present (wf : desk.WellFormed) {buffer : Buffer} (held : buffer ∈ desk.buffers)
    : buffer.graph < desk.workspace.size := by
  obtain ⟨_, _, node, found, _⟩ := wf.buffers buffer held
  exact Workspace.lt_size_of_found found

/-- A call that answers leaves its answer with the caller. -/
theorem call_eq_of_ok {call : BuildCall} {result : Buffer}
    (answer : (desk.workspace.build call.graph call.step).1 = .ok result)
    : desk.call call
      = ⟨(desk.workspace.build call.graph call.step).2, result :: desk.buffers⟩ := by
  unfold Desk.call
  split
  · next same =>
      rw [same] at answer ⊢
      rw [Except.ok.inj answer]
  · next same =>
      rw [same] at answer
      cases answer

/-- A call on one buffer that is held records its operation and answers. -/
structure Records (desk : Desk) (call : BuildCall) (source : Buffer) (kind : OpKind)
    (argument : Option Argument) (layout : Layout) (result : Buffer)
    : Prop where
  held : source ∈ desk.buffers
  own : call.graph = source.graph
  operands : call.operands = [source]
  answer : (desk.workspace.build call.graph call.step).1 = .ok result
  recorded
    : Build.Records (desk.workspace.graph call.graph) ⟨kind, [source.source], argument⟩
        source.dtype layout result (outcome call.step (desk.workspace.graph call.graph)).2

namespace Records

variable {call : BuildCall} {source result : Buffer} {kind : OpKind} {argument : Option Argument}
  {layout : Layout}

/-- The task of the operation that a call has recorded. -/
def task (_ : desk.Records call source kind argument layout result) : Task :=
  ⟨⟨kind, [source.source], argument⟩, result, [source]⟩

theorem layout_eq (records : desk.Records call source kind argument layout result)
    : result.layout = layout := by
  rw [records.recorded.result]

theorem dtype_eq (records : desk.Records call source kind argument layout result)
    : result.dtype = source.dtype := by
  rw [records.recorded.result]

theorem mem_buffers (records : desk.Records call source kind argument layout result)
    : result ∈ (desk.call call).buffers := by
  rw [call_eq_of_ok records.answer]
  exact List.mem_cons_self

theorem reachable (records : desk.Records call source kind argument layout result)
    (reached : desk.Reachable)
    : (desk.call call).Reachable := by
  refine .step reached (.call desk call ?_ ?_)
  · rw [records.own]
    exact reached.wellFormed.present records.held
  · rw [records.operands]
    exact List.forall_mem_singleton.mpr records.held

/-- The graph of the answer is the graph before with the recorded operation as its last node. -/
theorem graph_eq (records : desk.Records call source kind argument layout result)
    (reached : desk.Reachable)
    : (desk.call call).workspace.graph result.graph
      = (desk.workspace.graph call.graph).push
          (.deferred ⟨kind, [source.source], argument⟩ source.dtype layout) := by
  have present := reached.wellFormed.present records.held
  rw [← records.own] at present
  have id : result.graph = call.graph := by
    rw [records.recorded.result]
    exact (reached.wellFormed.workspace call.graph).1
  rw [workspace_call, id, Workspace.graph_build, if_pos ⟨rfl, present⟩, records.recorded.final]

/-- The last task of the answer's schedule is the one of the recorded operation: no other task has
the answer as its target.
-/
theorem getLast?_schedule (records : desk.Records call source kind argument layout result)
    (reached : desk.Reachable)
    : ∃ schedule,
        ((desk.call call).workspace.graph result.graph).schedule result.node = .ok schedule
        ∧ schedule.getLast? = some records.task := by
  have wf := (records.reachable reached).wellFormed
  obtain ⟨schedule, scheduled, contract⟩ :=
    wf.workspace.schedule_ok (wf.buffers result records.mem_buffers)
  refine ⟨schedule, scheduled, ?_⟩
  rw [records.graph_eq reached] at contract
  generalize deferred : Node.deferred _ source.dtype layout = node at contract
  have found : ((desk.workspace.graph call.graph).push node).nodes[result.node]? = some node := by
    simp [records.recorded.result, Graph.push, Graph.size]
  have pending : ((desk.workspace.graph call.graph).push node).isComputed result.node = false := by
    rw [Graph.isComputed, found, ← deferred]
    rfl
  obtain ⟨task, last, same⟩ := contract.last pending
  have last : schedule.getLast? = some task := last
  obtain ⟨other, operation, waits, shape⟩ := contract.exists_waits (List.mem_of_getLast? last)
  rw [same] at waits shape
  obtain rfl := Option.some.inj (found.symm.trans waits.found)
  have made := waits.made
  subst deferred
  obtain rfl := Option.some.inj made
  have inside : source.In (desk.workspace.graph call.graph) := by
    rw [records.own]
    exact reached.wellFormed.buffers source records.held
  have later := Graph.Extends.push (desk.workspace.graph call.graph)
    (.deferred ⟨kind, [source.source], argument⟩ source.dtype layout)
  have kept := (later.buffer inside).sourceView_source
  have target
      : (⟨(desk.workspace.graph call.graph).id, result.node, source.dtype, layout⟩ : Buffer)
        = result := by
    rw [records.recorded.result]
  rw [last, shape, Graph.task, List.map_singleton, kept]
  exact congrArg (fun target => some (⟨_, target, _⟩ : Task)) target

/-- A recorded operation that has a kernel fits. -/
theorem fits (records : desk.Records call source kind argument layout result)
    (reached : desk.Reachable) {program : Stmt} (runs : records.task.Runs program)
    : records.task.Fits program := by
  have wf := (records.reachable reached).wellFormed.buffers result records.mem_buffers
  refine ⟨runs, ?_, wf.2.1, ?_⟩
  · exact List.forall_mem_singleton.mpr records.dtype_eq.symm
  · exact List.forall_mem_singleton.mpr (reached.wellFormed.buffers source records.held).2.1

/-- A recorded operation that has a kernel is emitted with it. -/
theorem emits (records : desk.Records call source kind argument layout result)
    (reached : desk.Reachable) {program : Stmt} (runs : records.task.Runs program)
    : (desk.call call).Emits result (records.task.routine program) := by
  obtain ⟨schedule, scheduled, last⟩ := records.getLast?_schedule reached
  exact ⟨schedule, records.task, _, scheduled, last, rfl, (records.fits reached runs).render_eq,
    runs.read_unit⟩

/-- Over arrays that can be stored, the function of a recorded operation has an outcome in words if and
only if the dimensions that it folds can be counted.
-/
theorem exec_routine (records : desk.Records call source kind argument layout result)
    (reached : desk.Reachable) {program : Stmt} (runs : records.task.Runs program)
    {arith : Arithmetic}
    (known
      : ∀ bits ∈ program.constants,
          arith.constant result.dtype (result.dtype.narrowed bits)
            = arith.constant result.dtype bits)
    {cells out : Array Pattern} (stored : cells.size = source.layout.physicalSize)
    (outSize : out.size = result.layout.physicalSize)
    (few : ∀ array ∈ [out, cells], array.size < 2 ^ 63)
    : (records.task.routine program).exec arith out [cells]
      = if ∀ fold ∈ records.task.folds, fold.extent < 2 ^ 63 then
          some ((records.task.routine program).apply arith out [cells])
        else none :=
  (records.fits reached runs).exec_routine known outSize (congrArg (fun size => [size]) stored) few

end Records

-----------------------------------------------------------------------------------------
-- Folds
-----------------------------------------------------------------------------------------

/-- A fold along a dimension that a buffer has is recorded. -/
theorem records_reduce {source : Buffer} (held : source ∈ desk.buffers) (op : Reduction)
    {axis : Nat} (inside : axis < source.rank)
    : ∃ result,
        desk.Records (.reduce source op axis) source (.reduce op) (some (.axis axis))
          (.dense (source.shape.dropAxis axis)) result := by
  have ends
      : Ends (source.reduce op axis) (desk.workspace.graph source.graph)
          (Build.Records (desk.workspace.graph source.graph)
            ⟨.reduce op, [source.source], some (.axis axis)⟩ source.dtype
            (.dense (source.shape.dropAxis axis)))
          (fun _ _ => False) := by
    rw [Buffer.ends_reduce, if_pos inside]
    exact ⟨.reduce op source.source inside, rfl, rfl⟩
  obtain ⟨result, answer, recorded⟩ := ends.exists_ok
  exact ⟨result, held, rfl, rfl, answer, recorded⟩

/-- The number that a fold starts from is the same as it is printed. -/
theorem narrowed_reduceKernel (arith : Arithmetic) (dtype : DType) (op : Reduction) (axis : Nat)
    (source : Layout) (result : Shape)
    : ∀ bits ∈ (reduceKernel op axis source result).constants,
        arith.constant dtype (dtype.narrowed bits) = arith.constant dtype bits := by
  rw [reduceKernel, Stmt.constants, constants_nest]
  exact List.forall_mem_singleton.mpr (congrArg _ (dtype.narrowed_identity op))

/-- On every desk that callers can come to, a fold of a buffer along any dimension that it has is
recorded and emitted. Over any stored elements of the buffer, and whatever the output held before,
the function that the text is read as leaves at the row-major position of each index of the shape
without the dimension the elements along it: they are taken one after the other, by ascending
coordinate, into the number that the fold starts from. Nothing is asked of this number or of the
function that takes an element in. In words, with arrays that can be stored, this is the outcome if
the dimension can be counted, and there is none if it cannot.
-/
theorem Reachable.reduce_folds (reached : desk.Reachable) {source : Buffer}
    (held : source ∈ desk.buffers) (op : Reduction) {axis : Nat} (inside : axis < source.rank)
    : ∃ result routine,
        (desk.workspace.build source.graph (source.reduce op axis)).1 = .ok result
        ∧ result.layout = .dense (source.shape.eraseIdx axis)
        ∧ (desk.call (.reduce source op axis)).Emits result routine
        ∧ ∀ (arith : Arithmetic) (cells out : Array Pattern),
            cells.size = source.layout.physicalSize
            → out.size = result.layout.physicalSize
            → let done := routine.apply arith out [cells]
              ((∀ stored ∈ [out, cells], stored.size < 2 ^ 63) →
                routine.exec arith out [cells]
                  = if source.shape.getD axis 0 < 2 ^ 63 then some done else none)
              ∧ done.size = out.size
              ∧ ∀ index,
                  result.shape.Holds index →
                    done[result.shape.position index]?
                      = some
                          ((List.range (source.shape.getD axis 0)).foldl
                            (fun total coordinate =>
                              arith.binary result.dtype op.step total
                                ((source.layout.tiled cells).value
                                  (index.insertIdx axis coordinate)))
                            (arith.constant result.dtype op.identity)) := by
  obtain ⟨result, records⟩ := records_reduce held op inside
  have wf := (reached.wellFormed.buffers source held).2.1
  have dense := records.layout_eq
  have runs : records.task.Runs (reduceKernel op axis source.layout result.shape) :=
    .reduce op source result inside dense
  refine ⟨result, _, records.answer, dense, records.emits reached runs, ?_⟩
  intro arith cells out cellsSize outSize
  have known := narrowed_reduceKernel arith result.dtype op axis source.layout result.shape
  refine ⟨fun few => ?_, size_apply _ out, ?_⟩
  · have words := records.exec_routine reached runs known cellsSize outSize few
    have folds
        : (∀ fold ∈ records.task.folds, fold.extent < 2 ^ 63)
          ↔ source.shape.getD axis 0 < 2 ^ 63 :=
      List.forall_mem_singleton
    rw [words]
    exact if_congr folds rfl rfl
  · intro index inResult
    rw [dense, Layout.physicalSize_dense, ← Buffer.shape_of_dense dense] at outSize
    refine (congrArg (·[result.shape.position index]?) (Task.apply_routine known _ _)).trans ?_
    exact reduceKernel_leaves op wf inside (wf.shows_tiled cellsSize) (Buffer.shape_of_dense dense)
      outSize inResult

/-- The maximum along broadcast rows takes the element of each column once for each row. -/
theorem reduce_folds_sample
    : ∃ routine,
        (sample.call (.reduce sampleNegated .max 0)).Emits ⟨0, 3, .float32, .dense [3]⟩ routine
        ∧ ∀ (arith : Arithmetic) (first second third : Pattern),
            ∃ done,
              routine.exec arith #[7, 7, 7] [#[first, second, third]] = some done
              ∧ done[1]?
                = some
                    (arith.binary .float32 .max
                      (arith.binary .float32 .max
                        (arith.constant .float32 Spelling.negativeInfinity) second)
                      second) := by
  have held : sampleNegated ∈ sample.buffers := by decide
  have inside : 0 < sampleNegated.rank := by decide
  obtain ⟨result, routine, answer, dense, emits, leaves⟩ :=
    reachable_sample.reduce_folds held .max inside
  obtain rfl : (⟨0, 3, .float32, .dense [3]⟩ : Buffer) = result := Except.ok.inj answer
  refine ⟨routine, emits, ?_⟩
  intro arith first second third
  obtain ⟨words, _, elements⟩ := leaves arith #[first, second, third] #[7, 7, 7] rfl rfl
  have held : Shape.Holds [3] [1] := by simp
  exact ⟨_, words (by simp), elements [1] held⟩

/-- One element that is shown more often than a counter can count is folded by a kernel that has no
outcome, whatever the element is and whatever the output held before.
-/
theorem reduce_folds_greatest
    : sampleFolded.Reachable
      ∧ sampleGreatest ∈ sampleFolded.buffers
      ∧ ∃ routine,
          sampleFolded.Emits sampleGreatest routine
          ∧ ∀ (arith : Arithmetic) (element before : Pattern),
              routine.exec arith #[before] [#[element]] = none := by
  let program := reduceKernel .max 0 sampleMany.layout []
  have buffers := reachable_sampleFolded.wellFormed.buffers
  have runs : greatest.Runs program := .reduce .max sampleMany sampleGreatest (by decide) rfl
  have fits : greatest.Fits program := by
    refine ⟨runs, by decide, (buffers sampleGreatest (by decide)).2.1, ?_⟩
    exact List.forall_mem_singleton.mpr (buffers sampleMany (by decide)).2.1
  let one : Task := ⟨⟨.fill .constant, [], some (.value 0x3FF0000000000000)⟩, sampleOne, []⟩
  refine ⟨reachable_sampleFolded, by decide, greatest.routine program,
    ⟨[one, greatest], greatest, _, rfl, rfl, rfl, fits.render_eq, runs.read_unit⟩, ?_⟩
  intro arith element before
  have known := narrowed_reduceKernel arith .float32 .max 0 sampleMany.layout []
  refine (fits.exec_routine known rfl rfl ?_).trans (if_neg (by decide))
  simp

end Desk

end LazyTensor
