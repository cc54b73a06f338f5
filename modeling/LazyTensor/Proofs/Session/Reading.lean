import LazyTensor.Proofs.Reference.Reading
import LazyTensor.Proofs.Session.Sittings

/-! Reading tensors that are not computed. A read asks for memory and not for the mark that contents
are final. Only where memory was taken by hand does a node have some that is not computed, so only
there a read gives elements that nobody computed, and these are zeros.
-/

namespace LazyTensor

namespace Tensor

variable {α : Type} {tensor : Tensor} {read : Graph → Except GraphError α} {session : Session}

/-- Reading gives what there is to read on the graph and leaves the session as it is. -/
theorem outcome_reading
    : outcome (tensor.reading read) session
      = ((read (tensor.graph session)).mapError TensorError.graph, session) := by
  apply Ends.outcome_eq
  simp only [reading, ends_bind, ends_get]
  cases read (tensor.graph session) with
  | ok value => rfl
  | error cause => rfl

theorem reading_eq_ok {value : α}
    : (outcome (tensor.reading read) session).1 = .ok value
      ↔ read (tensor.graph session) = .ok value := by
  rw [outcome_reading]
  cases read (tensor.graph session) <;> simp [Except.mapError]

theorem reading_of_error {cause : GraphError} (failed : read (tensor.graph session) = .error cause)
    : outcome (tensor.reading read) session = (.error (.graph cause), session) := by
  rw [outcome_reading, failed]
  rfl

end Tensor

namespace Session.Sound

variable {session : Session} {tensors : List Tensor} {places : List (Nat × Nat)} {tensor : Tensor}

/-- The node of a tensor keeps to the rules and has the element type of the tensor. -/
theorem exists_node (sound : session.Sound tensors places) (held : tensor ∈ tensors)
    : ∃ node,
        (tensor.graph session).nodes[tensor.buffer.node]? = some node
        ∧ node.WellFormed (tensor.graph session) tensor.buffer.node
        ∧ node.dtype = tensor.buffer.dtype := by
  obtain ⟨desk, reached, same, listed⟩ := sound.desk
  have wf := reached.wellFormed
  obtain ⟨_, _, node, found, type, _⟩ := wf.buffers _ (listed tensor held)
  rw [same] at found
  have graphWf := (wf.workspace tensor.buffer.graph).2
  rw [same] at graphWf
  exact ⟨node, found, graphWf _ node found, type⟩

/-- A tensor that is not realized has zeroed memory if it was reserved, and otherwise none. -/
theorem exists_storage (sound : session.Sound tensors places) (held : tensor ∈ tensors)
    (pending : tensor.isRealized session = false)
    : ∃ storage,
        storage.dtype = tensor.buffer.dtype
        ∧ (∀ element ∈ storage.cells, element = 0)
        ∧ (tensor.graph session).storage? tensor.buffer.node
          = if tensor.place ∈ places then some storage else none := by
  obtain ⟨node, found, _, type⟩ := sound.exists_node held
  rw [Tensor.isRealized, Graph.isComputed, found] at pending
  refine ⟨node.zeroed, type, fun element member => (Array.mem_replicate.mp member).2, ?_⟩
  rw [Graph.storage?, found, Option.bind_some]
  exact sound.reserves.waiting _ _ node found pending

/-- A tensor that is neither realized nor reserved cannot be read. -/
theorem reads_unreserved (sound : session.Sound tensors places) (held : tensor ∈ tensors)
    (pending : tensor.isRealized session = false) (unreserved : tensor.place ∉ places)
    (dtype : DType)
    : (tensor.graph session).contents tensor.buffer dtype
        = .error (.notRealized tensor.buffer.node)
      ∧ (tensor.graph session).elements tensor.buffer dtype
        = .error (.notRealized tensor.buffer.node) := by
  obtain ⟨storage, _, _, had⟩ := sound.exists_storage held pending
  rw [if_neg unreserved] at had
  exact Graph.reads_absent had dtype

/-- What is read of a tensor that is not realized are zeros. -/
theorem zeros_of_contents (sound : session.Sound tensors places) (held : tensor ∈ tensors)
    (pending : tensor.isRealized session = false) {dtype : DType} {data : Array Pattern}
    (read : (tensor.graph session).contents tensor.buffer dtype = .ok data)
    : ∀ element ∈ data, element = 0 := by
  obtain ⟨storage, _, zeroed, had⟩ := sound.exists_storage held pending
  split at had
  · exact Graph.cells_of_contents had read ▸ zeroed
  · rw [(Graph.reads_absent had dtype).1] at read
    cases read

/-- A tensor is read under its own element type iff it is realized or reserved. -/
theorem exists_contents_iff (sound : session.Sound tensors places) (held : tensor ∈ tensors)
    : (∃ data, (tensor.graph session).contents tensor.buffer tensor.buffer.dtype = .ok data)
      ↔ tensor.isRealized session = true ∨ tensor.place ∈ places := by
  constructor
  · intro given
    obtain ⟨data, read⟩ := given
    by_contra neither
    obtain ⟨pending, unreserved⟩ := not_or.mp neither
    rw [(sound.reads_unreserved held (Bool.not_eq_true _ ▸ pending) unreserved _).1] at read
    cases read
  · intro either
    cases realized : tensor.isRealized session with
    | true =>
        obtain ⟨node, found, wf, type⟩ := sound.exists_node held
        rw [Tensor.isRealized, Graph.isComputed, found] at realized
        obtain ⟨storage, had⟩ := Option.isSome_iff_exists.mp (wf.computed realized)
        have own : storage.dtype = tensor.buffer.dtype := (wf.storage storage had).1.trans type
        refine ⟨storage.cells, own ▸ Graph.contents_own ?_⟩
        rw [Graph.storage?, found, Option.bind_some, had]
    | false =>
        obtain ⟨storage, own, _, had⟩ := sound.exists_storage held realized
        rw [if_pos (either.resolve_left (by simp [realized]))] at had
        exact ⟨storage.cells, own ▸ Graph.contents_own had⟩

end Session.Sound

namespace Sitting

variable {arith : Arithmetic} {sitting : Sitting} {tensor : Tensor}

/-- When tensors can be read. In every sitting that callers can come to, a tensor that is held is read
under its own element type iff it is realized or memory was taken for its node by hand. If it is not
realized, reads under any type fail as nothing was realized, unless memory was taken by hand; and
whatever they give then are zeros.
-/
theorem Reachable.reads_iff (reached : sitting.Reachable arith) (held : tensor ∈ sitting.tensors)
    : ((∃ data,
          (outcome (tensor.contents tensor.buffer.dtype) sitting.session).1 = .ok data)
        ↔ tensor.isRealized sitting.session = true ∨ tensor.place ∈ sitting.reserved)
      ∧ (tensor.isRealized sitting.session = false →
          ∀ dtype : DType,
            (tensor.place ∉ sitting.reserved →
              outcome (tensor.contents dtype) sitting.session
                = (.error (.graph (.notRealized tensor.buffer.node)), sitting.session)
              ∧ outcome (tensor.elements dtype) sitting.session
                = (.error (.graph (.notRealized tensor.buffer.node)), sitting.session))
            ∧ (∀ data,
                (outcome (tensor.contents dtype) sitting.session).1 = .ok data →
                  ∀ element ∈ data, element = 0)
            ∧ ∀ listed,
                (outcome (tensor.elements dtype) sitting.session).1 = .ok listed →
                  ∀ element ∈ listed, element = 0) := by
  have session := reached.sound.session
  constructor
  · exact (exists_congr fun _ => Tensor.reading_eq_ok).trans (session.exists_contents_iff held)
  · intro pending dtype
    refine ⟨?_, ?_, ?_⟩
    · intro unreserved
      obtain ⟨flat, shaped⟩ := session.reads_unreserved held pending unreserved dtype
      exact ⟨Tensor.reading_of_error flat, Tensor.reading_of_error shaped⟩
    · intro data given
      exact session.zeros_of_contents held pending (Tensor.reading_eq_ok.mp given)
    · intro listed given element member
      obtain ⟨data, read, stored⟩ := Graph.elements_stored (Tensor.reading_eq_ok.mp given)
      exact session.zeros_of_contents held pending read element (stored element member)

/-- A call for two ones. -/
def sampleCall : TensorCall := .fill .constant [2] (some (.value 0x3FF0000000000000)) .float32

/-- The ones of the first call. -/
def sampleFirst : Tensor := ⟨⟨0, 0, .float32, .dense [2]⟩⟩

/-- The ones of the second call. -/
def sampleSecond : Tensor := ⟨⟨0, 1, .float32, .dense [2]⟩⟩

/-- A sitting before any call. -/
def sampleStart : Sitting := start ⟨"cc", "-O2", "kernels", false⟩ (.simulated "cc" .working 0)

/-- The ones twice. -/
def sampleCalled : Sitting := (sampleStart.act sampleCall.step).act sampleCall.step

/-- The ones twice, with memory that was taken for the second by hand. -/
def sample : Sitting := sampleCalled.reserve sampleSecond

theorem reachable_sample : sample.Reachable .ieee := by
  have first : Reachable .ieee (sampleStart.act sampleCall.step) :=
    .step (.start _ _) (.call sampleStart sampleCall (by simp [sampleCall, TensorCall.operands]))
  have second : Reachable .ieee sampleCalled :=
    first.step (.call _ sampleCall (by simp [sampleCall, TensorCall.operands]))
  exact second.step (.reserve _ sampleSecond (by decide))

/-- Nobody has computed the second ones, and yet they are read, as zeros. -/
theorem contents_sampleSecond
    : sample.Reachable .ieee
      ∧ sampleSecond ∈ sample.tensors
      ∧ sampleSecond.isRealized sample.session = false
      ∧ (outcome (sampleSecond.contents .float32) sample.session).1 = .ok #[0, 0]
      ∧ (outcome (sampleSecond.elements .float32) sample.session).1 = .ok [0, 0] :=
  ⟨reachable_sample, by decide, by decide, by decide, by decide⟩

/-- The first ones cannot be read, and the second can. -/
theorem reads_iff_sample
    : sampleFirst.isRealized sample.session = false
      ∧ outcome (sampleFirst.elements .float32) sample.session
        = (.error (.graph (.notRealized 0)), sample.session)
      ∧ sampleSecond.isRealized sample.session = false
      ∧ ∃ data, (outcome (sampleSecond.contents .float32) sample.session).1 = .ok data := by
  have firstHeld : sampleFirst ∈ sample.tensors := by decide
  have secondHeld : sampleSecond ∈ sample.tensors := by decide
  have pending : sampleFirst.isRealized sample.session = false := by decide
  obtain ⟨_, fails⟩ := reachable_sample.reads_iff firstHeld
  obtain ⟨iff_, _⟩ := reachable_sample.reads_iff secondHeld
  refine ⟨pending, ?_, by decide, iff_.mpr (Or.inr (by decide))⟩
  exact ((fails pending .float32).1 (by decide)).2

end Sitting

end LazyTensor
