import LazyTensor.Proofs.Engine.Arrays
import LazyTensor.Proofs.Reference.Views

/-! Maps of one operand along runs. A chain of them on a view keeps its shape and its factors and
stores as many elements as stand behind the view, however many the view shows. What it shows are the
mapped elements of the view all the same, under its own view and any other of as many stored
elements.
-/

namespace LazyTensor

/-- Functions of one element, one after the other. -/
def Arithmetic.chain (arith : Arithmetic) (dtype : DType) (ops : List UnaryMap) (element : Pattern)
    : Pattern :=
  ops.foldl (fun element op => arith.unary dtype op element) element

@[simp] theorem Arithmetic.chain_concat (arith : Arithmetic) (dtype : DType) (ops : List UnaryMap)
    (op : UnaryMap) (element : Pattern)
    : arith.chain dtype (ops ++ [op]) element
      = arith.unary dtype op (arith.chain dtype ops element) := by
  simp [chain]

/-- A map is always recorded, with the layout of its source. -/
theorem Buffer.unary_madeBy (buffer : Buffer) (op : UnaryMap) (graph : Graph)
    : Ends (buffer.unary op) graph
        (fun result final =>
          result = ⟨graph.id, graph.size, buffer.dtype, buffer.layout⟩
          ∧ final.MadeBy graph.size ⟨.unary op, [buffer.source], none⟩ buffer.dtype buffer.layout)
        (fun _ _ => False) := by
  rw [ends_unary]
  exact ⟨rfl, Graph.madeBy_push _ _ _ _⟩

namespace Workbench

/-- From a state where a buffer is held, a chain of maps is asked for, each of the answer of the one
before. Anything may be done before and after and in between.
-/
inductive Maps (arith : Arithmetic) (bench : Workbench) (source : Buffer)
    : List UnaryMap → Workbench → Buffer → Prop
  | none {later : Workbench} (acts : Relation.ReflTransGen (Act arith) bench later)
    : Maps arith bench source [] later source
  | next {ops : List UnaryMap} {op : UnaryMap} {middle later : Workbench} {buffer result : Buffer}
    (before : Maps arith bench source ops middle buffer)
    (answer : (middle.desk.workspace.build buffer.graph (buffer.unary op)).1 = .ok result)
    (acts
      : Relation.ReflTransGen (Act arith) (middle.call (.elementwise buffer (.unary op) [])) later)
    : Maps arith bench source (ops ++ [op]) later result

/-- What is known of the last buffer of a chain of maps: it is stored like the first one, and in all
later states it shows the mapped elements under any view of as many stored elements.
-/
structure Mapped (arith : Arithmetic) (bench : Workbench) (source : Buffer) (ops : List UnaryMap)
    (later : Workbench) (result : Buffer)
    : Prop where
  leads : bench.LeadsTo arith later
  held : result ∈ later.desk.buffers
  graph : result.graph = source.graph
  type : result.dtype = source.dtype
  layout : result.layout = source.layout
  value
    : ∀ last, later.LeadsTo arith last →
        ∀ view : Layout, view.WellFormed → view.physicalSize = source.layout.physicalSize →
          ∀ index, view.shape.Holds index →
            (last.array arith (result.withLayout view)).value index
              = arith.chain source.dtype ops
                  ((bench.array arith (source.withLayout view)).value index)

variable {arith : Arithmetic} {bench middle later : Workbench} {source buffer result : Buffer}
  {ops : List UnaryMap} {op : UnaryMap}

/-- A buffer that is held is the last one of an empty chain. -/
theorem Mapped.none (sound : bench.Sound arith) (held : source ∈ bench.desk.buffers)
    (leads : bench.LeadsTo arith later)
    : bench.Mapped arith source [] later source := by
  refine ⟨leads, leads.buffers held, rfl, rfl, rfl, ?_⟩
  intro last leadsOn view viewWf size index _
  have has : bench.desk.workspace.Has (source.withLayout view) :=
    (sound.desk.buffers source held).withLayout viewWf size
  rw [(leads.trans leadsOn).array_eq_of_has sound has]
  rfl

/-- One map more. -/
theorem Mapped.next (standard : arith.Standard)
    (mapped : bench.Mapped arith source ops middle buffer)
    (answer : (middle.desk.workspace.build buffer.graph (buffer.unary op)).1 = .ok result)
    : bench.Mapped arith source (ops ++ [op]) (middle.call (.elementwise buffer (.unary op) []))
        result := by
  obtain ⟨before, heldBefore, graph, type, layout, value⟩ := mapped
  obtain ⟨leads, held, extends_⟩ :=
    before.sound.call_answers standard (.elementwise buffer (.unary op) [])
      (before.sound.present heldBefore) (by simp [BuildCall.operands, heldBefore]) answer
  obtain ⟨given, made⟩ := (buffer.unary_madeBy op _).of_ok answer
  rw [(before.sound.desk.workspace buffer.graph).1] at given
  refine ⟨before.trans leads, held, by rw [given, ← graph], by rw [given, ← type],
    by rw [given, ← layout], ?_⟩
  intro last leadsOn view viewWf size index inside
  -- The new node stores its source's layout, so it maps the same stored element under every view.
  rw [Arithmetic.chain_concat, ← value last (leads.trans leadsOn) view viewWf size index inside,
    given, ← type]
  exact ((extends_ last leadsOn).madeBy made).shown_unary
    (leadsOn.sound.desk.workspace buffer.graph).2
    (before.sound.desk.buffers buffer heldBefore).2.1 viewWf (layout ▸ size) inside

/-- What is known in one state is known in all later ones. -/
theorem Mapped.onward (mapped : bench.Mapped arith source ops middle result)
    (leads : middle.LeadsTo arith later)
    : bench.Mapped arith source ops later result :=
  { mapped with
    leads := mapped.leads.trans leads
    held := leads.buffers mapped.held
    value := fun last leadsOn => mapped.value last (leads.trans leadsOn) }

/-- What is known of chains of maps, by induction on the maps. -/
theorem Maps.mapped (standard : arith.Standard) (sound : bench.Sound arith)
    (held : source ∈ bench.desk.buffers) (maps : bench.Maps arith source ops later result)
    : bench.Mapped arith source ops later result := by
  induction maps with
  | none acts => exact .none sound held (sound.leadsTo_of_acts standard acts)
  | next _ answer acts ih =>
      have mapped := ih.next standard answer
      exact mapped.onward (mapped.leads.sound.leadsTo_of_acts standard acts)

/-- Under any view of as many stored elements, the storage of the last buffer shows the mapped
elements of what the first one shows under that view.
-/
theorem Mapped.shows (mapped : bench.Mapped arith source ops later result) {storage : Storage}
    (finished : later.desk.workspace.finished? result = some storage) {view : Layout}
    (viewWf : view.WellFormed) (size : view.physicalSize = source.layout.physicalSize)
    : view.Shows storage.cells
        ⟨view.shape, fun index =>
          arith.chain source.dtype ops
            ((bench.array arith (source.withLayout view)).value index)⟩ := by
  have sound := mapped.leads.sound
  have has : later.desk.workspace.Has (result.withLayout view) :=
    (sound.desk.buffers result mapped.held).withLayout viewWf (mapped.layout ▸ size)
  have finishedView : later.desk.workspace.finished? (result.withLayout view) = some storage :=
    finished
  obtain ⟨_, _, shows⟩ := sound.right.finished_shows has finishedView
  refine ⟨rfl, ?_⟩
  intro index inside
  exact (shows.value index inside).trans
    (congrArg some (mapped.value later sound.refl view viewWf size index inside))

/-- A shaped read of the last buffer gives the mapped elements of the first one in row-major order.
-/
theorem Mapped.elements_eq (mapped : bench.Mapped arith source ops later result) {storage : Storage}
    (finished : later.desk.workspace.finished? result = some storage)
    (small : source.shape.volume * source.dtype.bytes < addressRange)
    : (later.desk.workspace.graph result.graph).elements result result.dtype
      = .ok
          ((Shape.indices source.shape).map fun index =>
            arith.chain source.dtype ops ((bench.array arith source).value index)) := by
  have sound := mapped.leads.sound
  have shape : result.shape = source.shape := congrArg Layout.shape mapped.layout
  rw [sound.elements_eq mapped.held finished (by rwa [shape, mapped.type]), shape]
  refine congrArg Except.ok (List.map_congr_left ?_)
  intro index member
  have wf : source.layout.WellFormed :=
    mapped.layout ▸ (sound.desk.buffers result mapped.held).2.1
  have own : result.withLayout source.layout = result := by
    rw [← mapped.layout]
    rfl
  have value :=
    mapped.value later sound.refl source.layout wf rfl index (Shape.mem_indices.mp member)
  rw [own] at value
  exact value

/-- A chain of maps on a view, be it broadcast in any way, is never refused and keeps its shape and
its factors. Whenever its last buffer is computed, its storage has only as many elements as stand
behind the view, and a shaped read of it gives the mapped elements of the view at all indices in
row-major order, where the view reads as its elements. Under any view of as many stored elements,
which is how later kernels read it, it shows the mapped elements of what the first buffer shows
under that view.
-/
theorem maps_commute (standard : arith.Standard)
    (reached : Relation.ReflTransGen (Act arith) .start bench)
    (held : source ∈ bench.desk.buffers) (maps : bench.Maps arith source ops later result)
    : result.layout = source.layout
      ∧ result.dtype = source.dtype
      ∧ (∀ op : UnaryMap, ∃ next,
          (later.desk.workspace.build result.graph (result.unary op)).1 = .ok next)
      ∧ ∀ storage,
          later.desk.workspace.finished? result = some storage
          → storage.size = source.layout.physicalSize
            ∧ (source.shape.volume * source.dtype.bytes < addressRange →
                (later.desk.workspace.graph result.graph).elements result result.dtype
                    = .ok
                        ((Shape.indices source.shape).map fun index =>
                          arith.chain source.dtype ops ((bench.array arith source).value index))
                ∧ ∀ stored,
                    later.desk.workspace.finished? source = some stored
                    → (later.desk.workspace.graph source.graph).elements source source.dtype
                      = .ok ((Shape.indices source.shape).map (bench.array arith source).value))
            ∧ ∀ view : Layout,
                view.WellFormed → view.physicalSize = source.layout.physicalSize →
                  view.Shows storage.cells
                    ⟨view.shape, fun index =>
                      arith.chain source.dtype ops
                        ((bench.array arith (source.withLayout view)).value index)⟩ := by
  have sound := sound_of_acts standard reached
  have mapped := maps.mapped standard sound held
  refine ⟨mapped.layout, mapped.type, fun op => ⟨_, rfl⟩, ?_⟩
  intro storage finished
  obtain ⟨_, size, _⟩ := mapped.leads.sound.finished_shows mapped.held finished
  refine ⟨mapped.layout ▸ size, ?_, fun view wf same => mapped.shows finished wf same⟩
  intro small
  refine ⟨mapped.elements_eq finished small, ?_⟩
  intro stored computed
  rw [← mapped.leads.array_eq sound held]
  exact mapped.leads.sound.elements_eq (mapped.leads.buffers held) computed small

/-- The column twice, within one more dimension. -/
def sampleBlock : Buffer := sampleColumns.withUnits 1 0

/-- The block is held, too. -/
def sampleHeld : Workbench :=
  { sampleMatrices with desk := sampleMatrices.desk.hold sampleBlock }

/-- The roots of the block. -/
def sampleRoots : Buffer := { sampleBlock with node := 1 }

/-- The roots with the other sign. -/
def sampleNegated : Buffer := { sampleBlock with node := 2 }

/-- The block after both maps were asked for. -/
def sampleChain : Workbench :=
  (sampleHeld.call (.elementwise sampleBlock (.unary .sqrt) [])).call
    (.elementwise sampleRoots (.unary .neg) [])

/-- And after they were materialized. -/
def sampleMapped : Workbench :=
  sampleChain.withMachine 0
    (outcome (Machine.materialize .ieee sampleNegated) (sampleChain.machine sampleEngine)).2

theorem acts_sampleHeld : Relation.ReflTransGen (Act .ieee) .start sampleHeld :=
  acts_sampleMatrices.tail (.units sampleMatrices sampleColumns (by decide) 1 0)

theorem maps_sample
    : sampleHeld.Maps .ieee sampleBlock [.sqrt, .neg] sampleMapped sampleNegated := by
  have none : sampleHeld.Maps .ieee sampleBlock [] sampleHeld sampleBlock := .none .refl
  have roots
      : sampleHeld.Maps .ieee sampleBlock [.sqrt]
          (sampleHeld.call (.elementwise sampleBlock (.unary .sqrt) [])) sampleRoots :=
    none.next (by decide) .refl
  exact roots.next (by decide)
    (.single (.step (.materialize sampleChain 0 sampleEngine rfl sampleNegated (by decide))))

/-- The engine makes the kernels of both maps. -/
theorem finished_sampleMapped
    : (sampleMapped.desk.workspace.finished? sampleNegated).isSome = true := by
  decide +kernel

/-- The last of the four elements of the block is two and stands in the second place, where its root
with the other sign is when both maps are through.
-/
theorem maps_commute_sample
    : ∃ storage,
        sampleMapped.desk.workspace.finished? sampleNegated = some storage
        ∧ storage.size = 2
        ∧ storage.cells[1]? = some 0xBFB504F3 := by
  have held : sampleBlock ∈ sampleHeld.desk.buffers := List.mem_cons_self
  have has := (sound_of_acts Arithmetic.ieee_standard acts_sampleHeld).desk.buffers _ held
  obtain ⟨_, _, _, computed⟩ :=
    maps_commute Arithmetic.ieee_standard acts_sampleHeld held maps_sample
  obtain ⟨storage, finished⟩ := Option.isSome_iff_exists.mp finished_sampleMapped
  obtain ⟨size, _, shows⟩ := computed _ finished
  have inside : Shape.Holds [1, 2, 2] [0, 1, 1] := by simp
  have stands := (shows sampleBlock.layout has.2.1 rfl).value [0, 1, 1] inside
  have value
      : Arithmetic.ieee.chain .float32 [.sqrt, .neg]
          ((sampleHeld.array .ieee sampleBlock).value [0, 1, 1])
        = 0xBFB504F3 := by
    decide +kernel
  exact ⟨storage, finished, size, stands.trans (congrArg some value)⟩

end Workbench

end LazyTensor
