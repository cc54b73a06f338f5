import LazyTensor.Proofs.Workspace.Appending
import LazyTensor.Tensor

/-! Calls on tensors. Each of them forwards one call of a builder; a fold that keeps its dimension
then takes another view of what it appended, which cannot be refused any more, since the dimensions
that are left together with a dimension of size one fit wherever the tensor's own do. So what is
known of builders is known of tensors.
-/

namespace LazyTensor

-----------------------------------------------------------------------------------------
-- Folded shapes with their dimension kept
-----------------------------------------------------------------------------------------

namespace Shape

/-- A dimension of size one in the place of another counts as much as none. -/
theorem volume_set_one {shape : Shape} {axis : Nat} (inside : axis < shape.length)
    : volume (shape.set axis 1) = volume (shape.dropAxis axis) := by
  rw [List.set_eq_take_append_cons_drop, if_pos inside, dropAxis,
    List.eraseIdx_eq_take_drop_succ, volume_append, volume_append, volume_cons, Nat.one_mul]

theorem Fits.set_one {shape : Shape} (fits : shape.Fits) {axis : Nat}
    (inside : axis < shape.length)
    : Fits (shape.set axis 1) where
  positive := by
    intro extent member
    rcases List.mem_or_eq_of_mem_set member with old | rfl
    · exact fits.positive extent old
    · exact Nat.one_pos
  bounded := by
    rw [volume_set_one inside]
    exact (fits.sublist (List.eraseIdx_sublist _ axis)).bounded

end Shape

/-- The layout of a fold that keeps its dimension: the dense result of the fold, read with a dimension
of size one in the place of the one that was folded.
-/
def Layout.kept (shape : Shape) (axis : Nat) : Layout :=
  (dense (shape.dropAxis axis)).push (.dense (shape.set axis 1))

/-- The dense result of a fold can be read with the folded dimension kept. -/
theorem Layout.reshape_kept {shape : Shape} (fits : shape.Fits) {axis : Nat}
    (inside : axis < shape.length)
    : (Layout.dense (shape.dropAxis axis)).reshape (shape.set axis 1)
      = .ok (kept shape axis) := by
  have kept := fits.set_one inside
  have dropped := fits.sublist (List.eraseIdx_sublist shape axis)
  refine Layout.reshape_eq_ok_iff.mpr ⟨kept, ?_, rfl⟩
  rw [Layout.physicalSize_dense, kept.size_eq, Shape.volume_set_one inside]
  exact dropped.size_eq.symm

/-- A change of layout that is allowed gives another view and leaves the graph as it is. -/
theorem Buffer.outcome_view {buffer : Buffer} {change : Layout → Except Layout.Error Layout}
    {layout : Layout} (allowed : change buffer.layout = .ok layout) (graph : Graph)
    : outcome (buffer.view change) graph = (.ok (buffer.withLayout layout), graph) := by
  rw [view, allowed]
  rfl

-----------------------------------------------------------------------------------------
-- Steps of a session
-----------------------------------------------------------------------------------------

/-- The session with other graphs. -/
def Session.withWorkspace (session : Session) (workspace : Workspace) : Session :=
  { session with machine := { session.machine with workspace } }

/-- A step on one graph leaves the graphs as they are built. -/
theorem Acting.ends_building {α : Type} {id : Nat} {step : Build α} {session : Session}
    {done : α → Session → Prop} {failed : TensorError → Session → Prop}
    : Ends (building id step) session done failed
      ↔ match session.machine.workspace.build id step with
        | (.ok value, workspace) => done value (session.withWorkspace workspace)
        | (.error cause, workspace) => failed (.graph cause) (session.withWorkspace workspace) := by
  simp only [building, ends_bind, ends_get, ends_set]
  rcases session.machine.workspace.build id step with ⟨cause | value, workspace⟩ <;> rfl

/-- A tensor is made as its buffer is built. -/
theorem Tensor.ends_ofBuilder {id : Nat} {step : Build Buffer} {session : Session}
    {done : Tensor → Session → Prop} {failed : TensorError → Session → Prop}
    : Ends (Tensor.ofBuilder id step) session done failed
      ↔ match session.machine.workspace.build id step with
        | (.ok buffer, workspace) => done ⟨buffer⟩ (session.withWorkspace workspace)
        | (.error cause, workspace) => failed (.graph cause) (session.withWorkspace workspace) := by
  rw [Tensor.ofBuilder, ends_bind, Acting.ends_building]
  rcases session.machine.workspace.build id step with ⟨cause | buffer, workspace⟩ <;> rfl

/-- A change of layout that is allowed gives another view in any session and leaves it as it is. -/
theorem Tensor.outcome_view {tensor : Tensor} {change : Layout → Except Layout.Error Layout}
    {layout : Layout} (allowed : change tensor.buffer.layout = .ok layout) (session : Session)
    : outcome (tensor.derive (·.view change)) session
      = (.ok ⟨tensor.buffer.withLayout layout⟩, session) := by
  have viewed
      : session.machine.workspace.build tensor.buffer.graph (tensor.buffer.view change)
        = (.ok (tensor.buffer.withLayout layout), session.machine.workspace) :=
    Workspace.build_of_outcome (Buffer.outcome_view allowed _)
  refine outcome_eq_ok ?_
  rw [derive, ends_ofBuilder, viewed]
  exact ⟨rfl, rfl⟩

/-- What is known of the buffer that is built is known of the tensor. -/
theorem Tensor.ofBuilder_known {id : Nat} {step : Build Buffer} {session : Session}
    (known : Buffer → Prop)
    (ends
      : Ends step (session.machine.workspace.graph id) (fun result _ => known result)
          (fun _ _ => True))
    : Ends (Tensor.ofBuilder id step) session (fun tensor _ => known tensor.buffer)
        (fun _ _ => True) := by
  have result := session.machine.workspace.build_fst id step
  rw [ends_ofBuilder]
  rcases built : session.machine.workspace.build id step with ⟨cause | buffer, workspace⟩
  · trivial
  · exact ends.of_ok (result.symm.trans (congrArg Prod.fst built))

/-- A call on tensors with its arguments. -/
inductive TensorCall where
  | fill (op : Fill) (shape : Shape) (argument : Option Argument) (dtype : DType)
  | random (shape : Shape)
  | ofArray (dtype : DType) (data : Array Pattern) (shape : Shape)
  | map (tensor : Tensor) (op : UnaryMap)
  | combine (left : Tensor) (op : BinaryMap) (right : Tensor)
  | reduce (tensor : Tensor) (op : Reduction) (axis : Nat)
  | reduceKeeping (tensor : Tensor) (op : Reduction) (axis : Nat)
  | reshape (tensor : Tensor) (shape : Shape)
  | expand (tensor : Tensor) (shape : Shape)
  | permute (tensor : Tensor) (order : List Nat)
  | pad (tensor : Tensor) (padding : List (Nat × Nat))
  | transpose (tensor : Tensor)
  | matmul (left right : Tensor)
  | dot (left right : Tensor)

namespace TensorCall

/-- The tensors that a call is given. -/
def operands : TensorCall → List Tensor
  | fill .. | random _ | ofArray .. => []
  | map tensor _ | reduce tensor .. | reduceKeeping tensor .. | reshape tensor _ | expand tensor _
  | permute tensor _ | pad tensor _ | transpose tensor => [tensor]
  | combine left _ right | matmul left right | dot left right => [left, right]

/-- The step of a call. -/
def step : TensorCall → Acting Tensor
  | fill op shape argument dtype => Tensor.fill op shape argument dtype
  | random shape => Tensor.random shape
  | ofArray dtype data shape => Tensor.ofArray dtype data shape
  | map tensor op => tensor.map op
  | combine left op right => left.combine op right
  | reduce tensor op axis => tensor.reduce op axis
  | reduceKeeping tensor op axis => tensor.reduceKeeping op axis
  | reshape tensor shape => tensor.reshape shape
  | expand tensor shape => tensor.expand shape
  | permute tensor order => tensor.permute order
  | pad tensor padding => tensor.pad padding
  | transpose tensor => tensor.transpose
  | matmul left right => left.matmul right
  | dot left right => left.dot right

/-- The call of a builder that appends what a call appends, with the seed that is next. -/
def builder (seed : UInt64) : TensorCall → BuildCall
  | fill op shape argument dtype => .fill Session.defaultGraph op shape argument dtype
  | random shape => .fill Session.defaultGraph .random shape (some (.seed seed)) default
  | ofArray dtype data shape => .ofArray Session.defaultGraph dtype data shape
  | map tensor op => .elementwise tensor.buffer (.unary op) []
  | combine left op right => .elementwise left.buffer (.binary op) [right.buffer]
  | reduce tensor op axis | reduceKeeping tensor op axis => .reduce tensor.buffer op axis
  | reshape tensor shape => .reshape tensor.buffer shape
  | expand tensor shape => .expand tensor.buffer shape
  | permute tensor order => .permute tensor.buffer order
  | pad tensor padding => .pad tensor.buffer padding
  | transpose tensor => .permute tensor.buffer (Tensor.transposedOrder tensor.rank)
  | matmul left right => .matmul left.buffer right.buffer
  | dot left right => .dot left.buffer right.buffer

variable {session : Session}

/-- A tensor that forwards a call of a builder was appended, or the graphs are as they were. -/
theorem ofBuilder_ends (session : Session) (wf : session.machine.workspace.WellFormed)
    (call : BuildCall)
    (present : call.graph < session.machine.workspace.size)
    : Ends (Tensor.ofBuilder call.graph call.step) session
        (fun tensor final =>
          call.Appended session.machine.workspace tensor.buffer final.machine.workspace)
        (fun _ final => final.machine.workspace = session.machine.workspace) := by
  have ends := call.build_ends wf present
  rw [Tensor.ends_ofBuilder]
  revert ends
  rcases session.machine.workspace.build call.graph call.step with ⟨cause | buffer, workspace⟩
  · exact id
  · exact id

/-- A fold whose dimension is kept was appended, or the graphs are as they were: once the fold is
appended, its other view cannot be refused.
-/
theorem reduceKeeping_ends (wf : session.machine.workspace.WellFormed) {tensor : Tensor}
    (present : tensor.buffer.graph < session.machine.workspace.size) (fits : tensor.shape.Fits)
    (op : Reduction) (axis : Nat)
    : Ends (tensor.reduceKeeping op axis) session
        (fun result final =>
          BuildCall.Appended (.reduce tensor.buffer op axis) session.machine.workspace result.buffer
            final.machine.workspace)
        (fun _ final => final.machine.workspace = session.machine.workspace) := by
  have plain := ofBuilder_ends session wf (.reduce tensor.buffer op axis) present
  have folds
      : Ends (tensor.reduce op axis) session
          (fun result _ =>
            axis < tensor.shape.length
            ∧ result.buffer.layout = .dense (tensor.shape.dropAxis axis))
          (fun _ _ => True) := by
    refine Tensor.ofBuilder_known (fun buffer =>
      axis < tensor.shape.length ∧ buffer.layout = .dense (tensor.shape.dropAxis axis)) ?_
    refine (tensor.buffer.reduce_ends op axis _).mono ?_ (fun _ _ _ => trivial)
    intro result final recorded
    exact ⟨recorded.1, congrArg Buffer.layout recorded.2.result⟩
  simp only [Tensor.reduceKeeping, ends_bind]
  refine (Ends.and plain folds).mono ?_ (fun _ _ failed => failed.1)
  intro reduced middle outcome
  obtain ⟨appended, inside, dense⟩ := outcome
  have reshaped := Layout.reshape_kept fits inside
  rw [← dense] at reshaped
  have viewed
      : outcome (reduced.reshape (tensor.shape.set axis 1)) middle
        = (.ok ⟨reduced.buffer.withLayout (.kept tensor.shape axis)⟩, middle) :=
    reduced.outcome_view reshaped middle
  unfold Ends
  rw [viewed]
  exact ⟨appended.appends, appended.graph, appended.node⟩

/-- A call on tensors of usable shapes appends what its builder appends, or leaves the graphs as
they were.
-/
theorem step_ends (wf : session.machine.workspace.WellFormed) (call : TensorCall)
    (present : (call.builder session.nextSeed).graph < session.machine.workspace.size)
    (fits : ∀ tensor ∈ call.operands, tensor.shape.Fits)
    : Ends call.step session
        (fun tensor final =>
          (call.builder session.nextSeed).Appended session.machine.workspace tensor.buffer
            final.machine.workspace)
        (fun _ final => final.machine.workspace = session.machine.workspace) := by
  have plain := ofBuilder_ends session wf (call.builder session.nextSeed) present
  cases call with
  | random shape =>
      simp only [step, Tensor.random, ends_bind, ends_get, ends_modify]
      exact ofBuilder_ends { session with nextSeed := session.nextSeed + 1 } wf
        ((random shape).builder session.nextSeed) present
  | reduceKeeping tensor op axis =>
      exact reduceKeeping_ends wf present (fits tensor (List.mem_singleton_self _)) op axis
  | fill | ofArray | map | combine | reduce | reshape | expand | permute | pad | transpose
  | matmul | dot => exact plain

end TensorCall

-----------------------------------------------------------------------------------------
-- Desks
-----------------------------------------------------------------------------------------

namespace Desk

variable {desk : Desk}

/-- No graph is ever taken away. -/
theorem Step.size_le {next : Desk} (step : desk.Step next)
    : desk.workspace.size ≤ next.workspace.size := by
  cases step with
  | addGraph => simp [Workspace.addGraph, Workspace.size]
  | call call =>
      rw [workspace_call, Workspace.size_build]
  | node | source => exact Nat.le_refl _
  | allocate id _ | markComputed id _ | serve id _ =>
      rw [change, Workspace.size_build]
  | overwrite => simp [Workspace.withStorage, Workspace.size]

/-- The default graph is always there, by induction on the steps. -/
theorem Reachable.default_present (reached : desk.Reachable)
    : Session.defaultGraph < desk.workspace.size := by
  induction reached with
  | start => decide
  | step _ step ih => exact ih.trans_le step.size_le

/-- A buffer that is held has a usable shape and is of a graph that is there. -/
theorem Reachable.usable (reached : desk.Reachable) {buffer : Buffer}
    (held : buffer ∈ desk.buffers)
    : buffer.graph < desk.workspace.size ∧ buffer.shape.Fits := by
  obtain ⟨_, layoutWf, node, found, _⟩ := reached.wellFormed.buffers buffer held
  exact ⟨Workspace.lt_size_of_found found, layoutWf.current.fits⟩

/-- The graph on which a call on tensors works is there if the graphs of the tensors are. -/
theorem Reachable.builder_present (reached : desk.Reachable) (call : TensorCall) (seed : UInt64)
    (present : ∀ tensor ∈ call.operands, tensor.buffer.graph < desk.workspace.size)
    : (call.builder seed).graph < desk.workspace.size := by
  cases call with
  | fill | random | ofArray => exact reached.default_present
  | map | combine | reduce | reduceKeeping | reshape | expand | permute | pad | transpose | matmul
  | dot => exact present _ List.mem_cons_self

/-- Calls are atomic. On every desk that callers can come to, a call of a builder with any arguments
either fails and leaves all graphs as they were, or appends its nodes behind all others of its
receiver's graph: none for another view, two for the contraction of two arrays, otherwise one. It
answers with a buffer of the last of them, or of the receiver's node. And so does each call on
tensors, if their shapes are usable, as those of all buffers are that are held.
-/
theorem Reachable.call_atomic (reached : desk.Reachable)
    : (∀ call : BuildCall, call.graph < desk.workspace.size →
        match desk.workspace.build call.graph call.step with
        | (.ok buffer, final) => call.Appended desk.workspace buffer final
        | (.error _, final) => final = desk.workspace)
      ∧ (∀ buffer ∈ desk.buffers, buffer.graph < desk.workspace.size ∧ buffer.shape.Fits)
      ∧ ∀ (call : TensorCall) (session : Session), session.machine.workspace = desk.workspace →
          (∀ tensor ∈ call.operands,
            tensor.buffer.graph < desk.workspace.size ∧ tensor.shape.Fits) →
            match outcome call.step session with
            | (.ok tensor, final) =>
                (call.builder session.nextSeed).Appended desk.workspace tensor.buffer
                  final.machine.workspace
            | (.error _, final) => final.machine.workspace = desk.workspace := by
  have wf := reached.wellFormed.workspace
  refine ⟨fun call present => call.build_ends wf present, fun _ => reached.usable, ?_⟩
  intro call session same usable
  have present := reached.builder_present call session.nextSeed
    fun tensor member => (usable tensor member).1
  rw [← same] at present wf ⊢
  have ends := call.step_ends wf present fun tensor member => (usable tensor member).2
  unfold Ends at ends
  revert ends
  rcases outcome call.step session with ⟨cause | tensor, final⟩
  · exact id
  · exact id

/-- The sample in a session. -/
def sampleSession : Session :=
  ⟨⟨sample.workspace,
    .start ⟨"cc", "-O2", "kernels", false⟩ (.simulated "cc" .working 0), .start⟩, 0⟩

/-- The negated rows contracted with the sums are two nodes more, their contraction with themselves
is refused and changes nothing, and their greatest elements, with the dimension kept, are one node
more.
-/
theorem call_atomic_sample
    : BuildCall.Appended (.matmul sampleNegated sampleSums) sample.workspace
        ⟨0, 4, .float32, .dense [2]⟩
        (sample.workspace.build 0 (sampleNegated.matmul sampleSums)).2
      ∧ (sample.workspace.build 0 (sampleNegated.matmul sampleNegated)).2 = sample.workspace
      ∧ ∃ tensor final,
          outcome (Tensor.reduceKeeping ⟨sampleNegated⟩ .max 1) sampleSession = (.ok tensor, final)
          ∧ tensor.shape = [2, 1]
          ∧ BuildCall.Appended (.reduce sampleNegated .max 1) sample.workspace tensor.buffer
              final.machine.workspace := by
  obtain ⟨builders, usable, tensors⟩ := reachable_sample.call_atomic
  have held := usable sampleNegated (by decide)
  refine ⟨builders (.matmul sampleNegated sampleSums) (by decide), ?_, ?_⟩
  · exact builders (.matmul sampleNegated sampleNegated) (by decide)
  · exact ⟨_, _, rfl, rfl,
      tensors (.reduceKeeping ⟨sampleNegated⟩ .max 1) sampleSession rfl
        (List.forall_mem_singleton.mpr held)⟩

end Desk

end LazyTensor
