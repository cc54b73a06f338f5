import LazyTensor.Proofs.Engine.Resumption
import LazyTensor.Proofs.Session.Calls
import LazyTensor.Proofs.Session.Reserving

/-! Whole sessions. Tensors are made from others, memory is taken for them by hand, and they are
realized on the engine of the session or on others, which may fail at any point. In every state that
is reached, it is known for which nodes that are not computed there is memory: those for which it was
taken by hand.
-/

namespace LazyTensor

-----------------------------------------------------------------------------------------
-- Sessions
-----------------------------------------------------------------------------------------

namespace Tensor

/-- The graph of a tensor and the position of its node. -/
def place (tensor : Tensor) : Nat × Nat := (tensor.buffer.graph, tensor.buffer.node)

/-- Takes memory for the node of a tensor and computes nothing. -/
def reserve (tensor : Tensor) : Acting Storage :=
  Acting.building tensor.buffer.graph (Graph.allocate tensor.buffer.node)

end Tensor

/-- Callers can come to the graphs of a session with the buffers of some tensors, the kernels of its
engine suit their names, and memory is reserved for the nodes at some places.
-/
structure Session.Sound (session : Session) (tensors : List Tensor) (places : List (Nat × Nat))
    : Prop where
  desk
    : ∃ desk : Desk,
        desk.Reachable
        ∧ desk.workspace = session.machine.workspace
        ∧ ∀ tensor ∈ tensors, tensor.buffer ∈ desk.buffers
  kernels : session.machine.engine.cache.Suits
  reserves : session.machine.workspace.Reserves places

/-- A step on the machine ends as it does there. -/
theorem Acting.ends_running {α : Type} {step : Running α} {session : Session}
    {done : α → Session → Prop} {failed : TensorError → Session → Prop}
    : Ends (running step) session done failed
      ↔ Ends step session.machine (fun value machine => done value { session with machine })
          (fun cause machine => failed (.engine cause) { session with machine }) := by
  simp only [running, ends_bind, ends_get]
  unfold Ends outcome
  rcases step.run.run session.machine with ⟨cause | value, machine⟩ <;> rfl

/-- A call of a builder is given the buffers of the tensors that its call on tensors is given. -/
theorem TensorCall.operands_builder (call : TensorCall) (seed : UInt64)
    : (call.builder seed).operands = call.operands.map Tensor.buffer := by
  cases call <;> rfl

namespace Session.Sound

variable {arith : Arithmetic} {session : Session} {tensors : List Tensor}
  {places : List (Nat × Nat)} {tensor : Tensor}

/-- The graph of a tensor is there. -/
theorem present (sound : session.Sound tensors places) (held : tensor ∈ tensors)
    : tensor.buffer.graph < session.machine.workspace.size := by
  obtain ⟨desk, reached, same, listed⟩ := sound.desk
  exact same ▸ (reached.usable (listed tensor held)).1

/-- Tensors need not be held any longer. -/
theorem mono (sound : session.Sound tensors places) {fewer : List Tensor} (subset : fewer ⊆ tensors)
    : session.Sound fewer places := by
  obtain ⟨desk, reached, same, listed⟩ := sound.desk
  exact ⟨⟨desk, reached, same, fun tensor member => listed tensor (subset member)⟩, sound.kernels,
    sound.reserves⟩

/-- A tensor from a call of a builder is one more, or the call fails and reserves nothing. -/
theorem build (sound : session.Sound tensors places) (call : BuildCall)
    (present : call.graph < session.machine.workspace.size)
    (held : ∀ operand ∈ call.operands, ⟨operand⟩ ∈ tensors)
    : Ends (Tensor.ofBuilder call.graph call.step) session
        (fun tensor final => final.Sound (tensor :: tensors) places)
        (fun _ final => final.Sound tensors places) := by
  obtain ⟨desk, reached, same, listed⟩ := sound.desk
  have ends := call.build_ends (same ▸ reached.wellFormed.workspace) present
  have next : (desk.call call).Reachable := reached.step (.call desk call (same ▸ present)
    fun operand member => listed ⟨operand⟩ (held operand member))
  rw [Desk.call, same] at next
  rw [Tensor.ends_ofBuilder]
  revert ends next
  rcases session.machine.workspace.build call.graph call.step with ⟨cause | buffer, workspace⟩
  · intro unchanged next
    exact ⟨⟨_, next, rfl, listed⟩, sound.kernels, unchanged ▸ sound.reserves⟩
  · intro appended next
    refine ⟨⟨_, next, rfl, ?_⟩, sound.kernels, sound.reserves.appends appended.appends⟩
    refine List.forall_mem_cons.mpr ⟨List.mem_cons_self, ?_⟩
    exact fun other member => List.mem_cons_of_mem _ (listed other member)

/-- A call on tensors gives one more, or it fails and reserves nothing. -/
theorem call (sound : session.Sound tensors places) (call : TensorCall)
    (held : ∀ tensor ∈ call.operands, tensor ∈ tensors)
    : Ends call.step session (fun tensor final => final.Sound (tensor :: tensors) places)
        (fun _ final => final.Sound tensors places) := by
  obtain ⟨desk, reached, same, listed⟩ := sound.desk
  have present : (call.builder session.nextSeed).graph < session.machine.workspace.size :=
    same ▸ reached.builder_present call session.nextSeed fun tensor member =>
      (reached.usable (listed tensor (held tensor member))).1
  have operands : ∀ operand ∈ (call.builder session.nextSeed).operands, ⟨operand⟩ ∈ tensors := by
    rw [call.operands_builder]
    exact List.forall_mem_map.mpr held
  have plain := sound.build (call.builder session.nextSeed) present operands
  cases call with
  | random shape =>
      have spent : Session.Sound { session with nextSeed := session.nextSeed + 1 } tensors places :=
        ⟨sound.desk, sound.kernels, sound.reserves⟩
      simp only [TensorCall.step, Tensor.random, ends_bind, ends_get, ends_modify]
      exact spent.build ((TensorCall.random shape).builder session.nextSeed) present operands
  | reduceKeeping tensor op axis =>
      simp only [TensorCall.step, Tensor.reduceKeeping, ends_bind]
      refine plain.mono ?_ (fun _ _ kept => kept)
      intro reduced middle kept
      have first : reduced ∈ reduced :: tensors := List.mem_cons_self
      refine (kept.build (.reshape reduced.buffer (tensor.shape.set axis 1)) (kept.present first)
        (List.forall_mem_singleton.mpr first)).mono ?_ ?_
      · intro result final both
        exact both.mono (List.cons_subset_cons _ (List.subset_cons_self _ _))
      · exact fun _ final both => both.mono (List.subset_cons_self _ _)
  | fill | ofArray | map | combine | reduce | reshape | expand | permute | pad | transpose
  | matmul | dot => exact plain

/-- Memory for the node of a tensor is reserved, or it cannot be had. -/
theorem reserve (sound : session.Sound tensors places) (tensor : Tensor)
    : Ends tensor.reserve session (fun _ final => final.Sound tensors (tensor.place :: places))
        (fun _ final => final.Sound tensors places) := by
  obtain ⟨desk, reached, same, listed⟩ := sound.desk
  have allocates := sound.reserves.allocate tensor.buffer
  have next : (desk.change tensor.buffer.graph (Graph.allocate tensor.buffer.node)).Reachable :=
    reached.step (.allocate desk tensor.buffer.graph tensor.buffer.node)
  rw [Desk.change, same] at next
  rw [Tensor.reserve, Acting.ends_building]
  revert allocates next
  rcases session.machine.workspace.build tensor.buffer.graph (Graph.allocate tensor.buffer.node)
    with ⟨cause | storage, workspace⟩
  · intro unchanged next
    exact ⟨⟨_, next, rfl, listed⟩, sound.kernels, unchanged ▸ sound.reserves⟩
  · intro reserved next
    exact ⟨⟨_, next, rfl, listed⟩, sound.kernels, reserved⟩

/-- However realizing a tensor ends, nothing is reserved by it. -/
theorem realize (sound : session.Sound tensors places) (held : tensor ∈ tensors)
    : Ends (tensor.realize arith) session
        (fun result final => final.Sound (result :: tensors) places)
        (fun _ final => final.Sound tensors places) := by
  obtain ⟨⟨workspace, engine, host⟩, seed⟩ := session
  obtain ⟨desk, reached, same, listed⟩ := sound.desk
  obtain rfl : desk.workspace = workspace := same
  have wf := reached.wellFormed
  obtain ⟨schedule, scheduled, contract⟩ :=
    wf.workspace.schedule_ok (wf.buffers tensor.buffer (listed tensor held))
  have recorded : ∀ task ∈ schedule, task.Recorded desk.workspace := fun task member =>
    (contract.recorded (wf.workspace tensor.buffer.graph).1 task member).2
  have executes : Ends (Machine.execute arith schedule) ⟨desk.workspace, engine, host⟩ _ _ :=
    (reached.execute_computes recorded engine host).and
      (reached.execute_settles recorded sound.kernels host)
  have later {final : Machine} (leads : desk.Leads final.workspace)
      (settles : final.engine.cache.Suits ∧ desk.workspace.Settles final.workspace)
      : Session.Sound ⟨final, seed⟩ tensors places :=
    ⟨⟨_, leads.reached, rfl, listed⟩, settles.1,
      sound.reserves.settles leads.extends_ settles.2⟩
  simp only [Tensor.realize, Tensor.schedule, Tensor.graph, ends_bind, ends_get, scheduled,
    ends_pure, Acting.ends_running]
  refine executes.mono ?_ (fun _ _ failed => later failed.1.1 failed.2)
  exact fun _ _ done => (later done.1.1 done.2).mono (List.cons_subset.mpr ⟨held, List.Subset.refl _⟩)

end Session.Sound

-----------------------------------------------------------------------------------------
-- Sittings
-----------------------------------------------------------------------------------------

/-- A session with all that callers hold: tensors, engines besides the engine of the session, and the
places of nodes for which they took memory by hand.
-/
structure Sitting where
  session : Session
  tensors : List Tensor
  runners : List Engine
  reserved : List (Nat × Nat)

/-- An engine without kernels has none that does not suit. -/
theorem Engine.suits_start (settings : Settings) (toolchain : Toolchain)
    : (Engine.start settings toolchain).cache.Suits := by
  intro unit _ kernel found
  cases found

/-- The session with another engine. -/
def Session.withEngine (session : Session) (engine : Engine) : Session :=
  { session with machine := { session.machine with engine } }

namespace Sitting

/-- A session with an engine without kernels. -/
def start (settings : Settings) (toolchain : Toolchain) : Sitting :=
  ⟨.start (.start settings toolchain), [], [], []⟩

/-- The sitting after a step that gives a tensor or fails. The tensor is held from then on. -/
def act (sitting : Sitting) (step : Acting Tensor) : Sitting :=
  match outcome step sitting.session with
  | (.ok tensor, session) => { sitting with session, tensors := tensor :: sitting.tensors }
  | (.error _, session) => { sitting with session }

/-- The sitting after memory was taken for the node of a tensor, if it could be had. -/
def reserve (sitting : Sitting) (tensor : Tensor) : Sitting :=
  match outcome tensor.reserve sitting.session with
  | (.ok _, session) => { sitting with session, reserved := tensor.place :: sitting.reserved }
  | (.error _, session) => { sitting with session }

/-- The sitting after a tensor was realized on one of the engines that callers hold. -/
def realizeOn (arith : Arithmetic) (sitting : Sitting) (number : Nat) (runner : Engine)
    (tensor : Tensor)
    : Sitting :=
  let final := (outcome (tensor.realize arith) (sitting.session.withEngine runner)).2
  { sitting with
    session := final.withEngine sitting.session.machine.engine
    runners := sitting.runners.set number final.machine.engine }

/-- One step of any caller. Realizing may fail at any point, as toolchains may do what they like. -/
inductive Step (arith : Arithmetic) : Sitting → Sitting → Prop
  | call (sitting : Sitting) (call : TensorCall)
    (held : ∀ tensor ∈ call.operands, tensor ∈ sitting.tensors)
    : Step arith sitting (sitting.act call.step)
  /-- A buffer is built on any graph that is there and taken for a tensor. -/
  | build (sitting : Sitting) (call : BuildCall)
    (present : call.graph < sitting.session.machine.workspace.size)
    (held : ∀ operand ∈ call.operands, ⟨operand⟩ ∈ sitting.tensors)
    : Step arith sitting (sitting.act (Tensor.ofBuilder call.graph call.step))
  | addGraph (sitting : Sitting)
    : Step arith sitting
        { sitting with
          session := sitting.session.withWorkspace sitting.session.machine.workspace.addGraph }
  | setSeed (sitting : Sitting) (seed : UInt64)
    : Step arith sitting
        { sitting with session := (outcome (Tensor.setSeed seed) sitting.session).2 }
  /-- Memory is taken for the node of a tensor and nothing is computed. -/
  | reserve (sitting : Sitting) (tensor : Tensor) (held : tensor ∈ sitting.tensors)
    : Step arith sitting (sitting.reserve tensor)
  | realize (sitting : Sitting) (tensor : Tensor) (held : tensor ∈ sitting.tensors)
    : Step arith sitting (sitting.act (tensor.realize arith))
  | runner (sitting : Sitting) (settings : Settings) (toolchain : Toolchain)
    : Step arith sitting { sitting with runners := .start settings toolchain :: sitting.runners }
  | realizeOn (sitting : Sitting) (number : Nat) (runner : Engine)
    (found : sitting.runners[number]? = some runner) (tensor : Tensor)
    (held : tensor ∈ sitting.tensors)
    : Step arith sitting (sitting.realizeOn arith number runner tensor)
  /-- The host gives other amounts of memory. -/
  | serve (sitting : Sitting) (id : Nat) (memory : (node bytes : Nat) → Bool)
    : Step arith sitting
        { sitting with
          session :=
            sitting.session.withWorkspace
              (sitting.session.machine.workspace.build id (Graph.serve memory)).2 }
  /-- Something happens to the files and libraries. -/
  | outside (sitting : Sitting) (host : Host)
    : Step arith sitting
        { sitting with
          session := { sitting.session with machine := { sitting.session.machine with host } } }

/-- A sitting that callers can come to. -/
inductive Reachable (arith : Arithmetic) : Sitting → Prop
  | start (settings : Settings) (toolchain : Toolchain)
    : Reachable arith (.start settings toolchain)
  | step {sitting next : Sitting} (reached : Reachable arith sitting)
    (step : sitting.Step arith next)
    : Reachable arith next

/-- The session is sound and so are the engines that callers hold. -/
structure Sound (sitting : Sitting) : Prop where
  session : sitting.session.Sound sitting.tensors sitting.reserved
  runners : ∀ runner ∈ sitting.runners, runner.cache.Suits

variable {arith : Arithmetic} {sitting : Sitting} {tensor : Tensor}

theorem Sound.start (settings : Settings) (toolchain : Toolchain)
    : (Sitting.start settings toolchain).Sound where
  session := ⟨⟨.start, .start, rfl, by simp [Sitting.start]⟩, Engine.suits_start settings toolchain,
    .start⟩
  runners := by simp [Sitting.start]

theorem Sound.act (sound : sitting.Sound) {step : Acting Tensor}
    (ends
      : Ends step sitting.session
          (fun tensor final => final.Sound (tensor :: sitting.tensors) sitting.reserved)
          (fun _ final => final.Sound sitting.tensors sitting.reserved))
    : (sitting.act step).Sound := by
  unfold Ends at ends
  unfold Sitting.act
  revert ends
  rcases outcome step sitting.session with ⟨cause | tensor, final⟩
  · exact fun session => ⟨session, sound.runners⟩
  · exact fun session => ⟨session, sound.runners⟩

theorem Sound.reserve (sound : sitting.Sound) (tensor : Tensor) : (sitting.reserve tensor).Sound := by
  have ends := sound.session.reserve tensor
  unfold Ends at ends
  unfold Sitting.reserve
  revert ends
  rcases outcome tensor.reserve sitting.session with ⟨cause | storage, final⟩
  · exact fun session => ⟨session, sound.runners⟩
  · exact fun session => ⟨session, sound.runners⟩

theorem Sound.realizeOn (sound : sitting.Sound) {number : Nat} {runner : Engine}
    (found : sitting.runners[number]? = some runner) (held : tensor ∈ sitting.tensors)
    : (sitting.realizeOn arith number runner tensor).Sound := by
  have other : (sitting.session.withEngine runner).Sound sitting.tensors sitting.reserved :=
    ⟨sound.session.desk, sound.runners runner (List.mem_of_getElem? found), sound.session.reserves⟩
  have realizes : Ends (tensor.realize arith) (sitting.session.withEngine runner) _ _ :=
    other.realize held
  have final := (realizes.mono (fun _ _ kept => kept.mono (List.subset_cons_self _ _))
    fun _ _ kept => kept).final _
  refine ⟨⟨final.desk, sound.session.kernels, final.reserves⟩, ?_⟩
  intro engine member
  rcases List.mem_or_eq_of_mem_set member with old | rfl
  · exact sound.runners engine old
  · exact final.kernels

/-- Every step keeps a sitting sound, however it ends. -/
theorem Sound.step (sound : sitting.Sound) {next : Sitting} (step : sitting.Step arith next)
    : next.Sound := by
  cases step with
  | call call held => exact sound.act (sound.session.call call held)
  | build call present held => exact sound.act (sound.session.build call present held)
  | addGraph =>
      obtain ⟨desk, reached, same, listed⟩ := sound.session.desk
      have next := reached.step (.addGraph desk)
      rw [same] at next
      exact ⟨⟨⟨_, next, rfl, listed⟩, sound.session.kernels, sound.session.reserves.addGraph⟩,
        sound.runners⟩
  | setSeed seed =>
      exact ⟨⟨sound.session.desk, sound.session.kernels, sound.session.reserves⟩, sound.runners⟩
  | reserve tensor held => exact sound.reserve tensor
  | realize tensor held => exact sound.act (sound.session.realize held)
  | runner settings toolchain =>
      exact ⟨sound.session,
        List.forall_mem_cons.mpr ⟨Engine.suits_start settings toolchain, sound.runners⟩⟩
  | realizeOn number runner found tensor held => exact sound.realizeOn found held
  | serve id memory =>
      obtain ⟨desk, reached, same, listed⟩ := sound.session.desk
      have next := reached.step (.serve desk id memory)
      rw [Desk.change, same] at next
      exact ⟨⟨⟨_, next, rfl, listed⟩, sound.session.kernels, sound.session.reserves.serve id memory⟩,
        sound.runners⟩
  | outside host =>
      exact ⟨⟨sound.session.desk, sound.session.kernels, sound.session.reserves⟩, sound.runners⟩

/-- Every sitting that is reached is sound, by induction on the steps. -/
theorem Reachable.sound (reached : sitting.Reachable arith) : sitting.Sound := by
  induction reached with
  | start settings toolchain => exact .start settings toolchain
  | step _ step ih => exact ih.step step

end Sitting

end LazyTensor
