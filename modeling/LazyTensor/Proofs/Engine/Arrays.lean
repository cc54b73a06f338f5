import LazyTensor.Proofs.Engine.Moves

/-! The arrays of buffers along runs. Whatever callers and engines do later on, the buffers that are
held are held still and show the arrays that they showed. So arrays can be compared between states
of a run, and what a node has for its final contents is known from the state in which it was made.
-/

namespace LazyTensor

/-- Data from outside that were given before a call stay what they are. -/
theorem BuildCall.Makes.given_eq {call : BuildCall} {graph final : Graph} {result : Buffer}
    (makes : call.Makes graph result final) (given : Nat → Array Pattern) {position : Nat}
    (below : position < graph.size)
    : call.given result.node given position = given position := by
  cases call with
  | ofArray _ dtype data shape =>
      obtain ⟨_, _, _, rfl⟩ := makes
      exact Function.update_of_ne below.ne _ _
  | _ => rfl

namespace Workbench

variable {arith : Arithmetic} {bench next later : Workbench}

/-- The array that a buffer shows, whether or not it is computed. -/
def array (arith : Arithmetic) (bench : Workbench) (buffer : Buffer) : LogicalArray :=
  (bench.desk.workspace.graph buffer.graph).shown arith (bench.given buffer.graph) buffer.source

/-- The final contents of a buffer's node are of its type and as many as stand behind it, and they
show its array.
-/
theorem Sound.finished_shows (sound : bench.Sound arith) {buffer : Buffer}
    (held : buffer ∈ bench.desk.buffers) {storage : Storage}
    (final : bench.desk.workspace.finished? buffer = some storage)
    : storage.dtype = buffer.dtype
      ∧ storage.size = buffer.layout.physicalSize
      ∧ buffer.layout.Shows storage.cells (bench.array arith buffer) :=
  sound.right.finished_shows (sound.desk.buffers buffer held) final

/-- A buffer whose node is computed reads as its array in row-major order, if it shows few enough
bytes.
-/
theorem Sound.elements_eq (sound : bench.Sound arith) {buffer : Buffer}
    (held : buffer ∈ bench.desk.buffers) {storage : Storage}
    (final : bench.desk.workspace.finished? buffer = some storage)
    (small : buffer.shape.volume * buffer.dtype.bytes < addressRange)
    : (bench.desk.workspace.graph buffer.graph).elements buffer buffer.dtype
      = .ok ((Shape.indices buffer.shape).map (bench.array arith buffer).value) := by
  obtain ⟨type, size, shows⟩ := sound.finished_shows held final
  have had : (bench.desk.workspace.graph buffer.graph).storage? buffer.node = some storage := by
    rw [Workspace.finished?] at final
    split at final
    · exact final
    · cases final
  rw [← type] at small ⊢
  exact Graph.elements_eq (sound.desk.buffers buffer held).2.1 had size shows small

-----------------------------------------------------------------------------------------
-- Later states
-----------------------------------------------------------------------------------------

/-- A later state: the nodes stay what they are, so do the data that were given for them, and the
buffers that were held still are.
-/
structure LeadsTo (arith : Arithmetic) (old new : Workbench) : Prop where
  sound : new.Sound arith
  extends_ : old.desk.workspace.Extends new.desk.workspace
  given
    : ∀ id, ∀ position < (old.desk.workspace.graph id).size,
        new.given id position = old.given id position
  buffers : old.desk.buffers ⊆ new.desk.buffers

theorem Sound.refl (sound : bench.Sound arith) : bench.LeadsTo arith bench :=
  ⟨sound, .refl _, fun _ _ _ => rfl, List.Subset.refl _⟩

theorem LeadsTo.trans {first second third : Workbench} (left : first.LeadsTo arith second)
    (right : second.LeadsTo arith third)
    : first.LeadsTo arith third where
  sound := right.sound
  extends_ := left.extends_.trans right.extends_
  given := by
    intro id position below
    rw [right.given id position ((left.extends_ id).lt_size below),
      left.given id position below]
  buffers := List.Subset.trans left.buffers right.buffers

/-- A call gives data for new nodes only. -/
theorem given_call (sound : bench.Sound arith) (call : BuildCall)
    (held : ∀ operand ∈ call.operands, operand ∈ bench.desk.buffers) {id position : Nat}
    (below : position < (bench.desk.workspace.graph id).size)
    : (bench.call call).given id position = bench.given id position := by
  obtain ⟨own, wf⟩ := sound.desk.workspace call.graph
  have ends := call.step_ends wf own.symm (sound.desk.operands_in held)
  rw [Workbench.call]
  cases answer : (bench.desk.workspace.build call.graph call.step).1 with
  | error cause => rfl
  | ok buffer =>
      have makes := ends.of_ok answer
      by_cases same : id = call.graph
      · subst same
        simp only [Function.update_self]
        exact makes.given_eq _ below
      · simp only [Function.update_of_ne same]

/-- A call keeps the buffers that are held. -/
theorem buffers_call (bench : Workbench) (call : BuildCall)
    : bench.desk.buffers ⊆ (bench.call call).desk.buffers := by
  change bench.desk.buffers ⊆ (bench.desk.call call).buffers
  rw [Desk.call]
  split
  · exact List.subset_cons_self _ _
  · exact List.Subset.refl _

/-- Every step leads on, however it ends. -/
theorem Sound.leadsTo (standard : arith.Standard) (sound : bench.Sound arith)
    (step : bench.Step arith next)
    : bench.LeadsTo arith next where
  sound := sound.step standard step
  extends_ := fun id => ((step.livesOn sound.desk).workspace id).extends_
  given := by
    intro id position below
    cases step with
    | call call present held => exact given_call sound call held below
    | prepare number engine found schedule held =>
        rw [Workbench.prepare]
        split <;> rfl
    | _ => rfl
  buffers := by
    cases step with
    | call call present held => exact bench.buffers_call call
    | node | source => exact List.subset_cons_self _ _
    | prepare number engine found schedule held =>
        rw [desk_prepare]
        exact List.Subset.refl _
    | _ => exact List.Subset.refl _

/-- One step of a caller who may also put dimensions of size one around the view of a buffer that is
held, which only the composed contraction does otherwise.
-/
inductive Act (arith : Arithmetic) : Workbench → Workbench → Prop
  | step {bench next : Workbench} (taken : bench.Step arith next) : Act arith bench next
  | units (bench : Workbench) (buffer : Buffer) (held : buffer ∈ bench.desk.buffers)
    (leading trailing : Nat)
    : Act arith bench
        { bench with desk := bench.desk.hold (buffer.withUnits leading trailing) }

theorem Act.leadsTo (standard : arith.Standard) (sound : bench.Sound arith)
    (act : bench.Act arith next)
    : bench.LeadsTo arith next := by
  cases act with
  | step taken => exact sound.leadsTo standard taken
  | units buffer held leading trailing =>
      -- Only the view is new: the node is the same and as many elements are stored.
      have has := sound.desk.buffers buffer held
      have wf := has.2.1.insertUnits leading trailing
      have size := has.2.1.physicalSize_insertUnits leading trailing
      have more : bench.desk.workspace.Has (buffer.withUnits leading trailing) :=
        has.withLayout wf size
      exact ⟨sound.withDesk (sound.desk.hold more) (.refl _) sound.computes, .refl _,
        fun _ _ _ => rfl, List.subset_cons_self _ _⟩

/-- Every run leads on, by induction on the acts. -/
theorem Sound.leadsTo_of_acts (standard : arith.Standard) (sound : bench.Sound arith)
    (acts : Relation.ReflTransGen (Act arith) bench later)
    : bench.LeadsTo arith later := by
  induction acts with
  | refl => exact sound.refl
  | tail _ act ih => exact ih.trans (act.leadsTo standard ih.sound)

theorem sound_of_acts (standard : arith.Standard)
    (reached : Relation.ReflTransGen (Act arith) .start bench)
    : bench.Sound arith :=
  (Sound.start.leadsTo_of_acts standard reached).sound

/-- Buffers show in all later states what they show. -/
theorem LeadsTo.array_eq_of_has (leads : bench.LeadsTo arith later) (sound : bench.Sound arith)
    {buffer : Buffer} (has : bench.desk.workspace.Has buffer)
    : later.array arith buffer = bench.array arith buffer :=
  (leads.extends_ buffer.graph).shown_eq (sound.right.graph _).wellFormed
    (leads.sound.right.graph _).wellFormed has.2 (leads.given buffer.graph)

theorem LeadsTo.array_eq (leads : bench.LeadsTo arith later) (sound : bench.Sound arith)
    {buffer : Buffer} (held : buffer ∈ bench.desk.buffers)
    : later.array arith buffer = bench.array arith buffer :=
  leads.array_eq_of_has sound (sound.desk.buffers buffer held)

-----------------------------------------------------------------------------------------
-- Calls that give a buffer
-----------------------------------------------------------------------------------------

theorem Sound.present (sound : bench.Sound arith) {buffer : Buffer}
    (held : buffer ∈ bench.desk.buffers)
    : buffer.graph < bench.desk.workspace.size := by
  obtain ⟨_, _, node, found, _⟩ := sound.desk.buffers buffer held
  exact Workspace.lt_size_of_found found

/-- A buffer that a call answers with is held from then on. -/
theorem mem_buffers_call {call : BuildCall} {result : Buffer}
    (answer : (bench.desk.workspace.build call.graph call.step).1 = .ok result)
    : result ∈ (bench.call call).desk.buffers := by
  change result ∈ (bench.desk.call call).buffers
  rw [Desk.call]
  split
  · next same =>
      rw [same] at answer
      exact Except.ok.inj answer ▸ List.mem_cons_self
  · next same =>
      rw [same] at answer
      cases answer

/-- A call that gives a buffer leads on. The buffer is held from then on, and in all later states
the graph extends the one that the step of the call makes.
-/
theorem Sound.call_answers (standard : arith.Standard) (sound : bench.Sound arith)
    (call : BuildCall) (present : call.graph < bench.desk.workspace.size)
    (held : ∀ operand ∈ call.operands, operand ∈ bench.desk.buffers) {result : Buffer}
    (answer : (bench.desk.workspace.build call.graph call.step).1 = .ok result)
    : bench.LeadsTo arith (bench.call call)
      ∧ result ∈ (bench.call call).desk.buffers
      ∧ ∀ later, (bench.call call).LeadsTo arith later →
          (outcome call.step (bench.desk.workspace.graph call.graph)).2.Extends
            (later.desk.workspace.graph call.graph) := by
  refine ⟨sound.leadsTo standard (.call bench call present held), mem_buffers_call answer, ?_⟩
  intro later leads
  have extends_ := leads.extends_ call.graph
  change ((bench.desk.call call).workspace.graph call.graph).Extends _ at extends_
  rwa [Desk.workspace_call, Workspace.graph_build, if_pos ⟨rfl, present⟩] at extends_

-----------------------------------------------------------------------------------------
-- A sample
-----------------------------------------------------------------------------------------

/-- A column of the numbers one and two. -/
def sampleColumn : Buffer := ⟨0, 0, .float32, .dense [2, 1]⟩

/-- The column twice, side by side. -/
def sampleColumns : Buffer := ⟨0, 0, .float32, ⟨⟨[2, 2], [1, 2]⟩, [.dense [2, 1]]⟩⟩

/-- Both views of the column and an engine. -/
def sampleMatrices : Workbench :=
  { (start.call (.ofArray 0 .float32 #[0x3F800000, 0x40000000] [2, 1])).call
      (.expand sampleColumn [2, 2]) with
    engines := [sampleEngine] }

theorem acts_sampleMatrices : Relation.ReflTransGen (Act .ieee) .start sampleMatrices := by
  have data
      : Relation.ReflTransGen (Act .ieee) .start
          (start.call (.ofArray 0 .float32 #[0x3F800000, 0x40000000] [2, 1])) :=
    .single (.step (.call _ _ (by decide) (by decide)))
  have views :=
    data.tail (.step (.call _ (.expand sampleColumn [2, 2]) (by decide) (by decide)))
  exact views.tail (.step (.engine _ _ _ (Toolchain.simulated_faithful "cc" .working 0)))

end Workbench

end LazyTensor
