import LazyTensor.Proofs.Kernel.Tiling
import LazyTensor.Proofs.Layout.Addressing
import LazyTensor.Proofs.Reference.Reading

/-! Two readers of a view. A shaped read arranges the stored elements under the stored shape and
repeats them along the dimensions of size one; a kernel goes to the sum of the products of counters
and strides. Neither knows of the other, and at every index of every view they find the same element
of the storage.
-/

namespace LazyTensor

open Kernel

namespace Graph

variable {graph : Graph} {buffer : Buffer}

/-- The storage of a buffer's node has the type of the buffer and as many elements as stand behind it.
-/
theorem WellFormed.storage_fits (wf : graph.WellFormed) (held : buffer.In graph) {storage : Storage}
    (had : graph.storage? buffer.node = some storage)
    : storage.dtype = buffer.dtype ∧ storage.size = buffer.layout.physicalSize := by
  obtain ⟨_, _, node, found, type, stored⟩ := held
  have found : graph.nodes[buffer.node]? = some node := found
  rw [storage?, found, Option.bind_some] at had
  obtain ⟨ownType, ownSize⟩ := (wf buffer.node node found).storage storage had
  exact ⟨ownType.trans type, ownSize.trans stored.symm⟩

end Graph

namespace Layout.WellFormed

variable {layout : Layout} {cells : Array Pattern} {index : Index}

/-- Every index has its element at its address. -/
theorem exists_element (wf : layout.WellFormed) (size : cells.size = layout.physicalSize)
    (held : layout.shape.Holds index)
    : ∃ element, cells[layout.address index]? = some element := by
  have below : layout.address index < cells.size := by
    rw [wf.address_eq held, size]
    exact wf.current.place_lt held
  exact ⟨_, Array.getElem?_eq_getElem below⟩

/-- Rows that are read and repeated have at the row-major position of an index the element at its
address.
-/
theorem getElem?_repeatUnits (wf : layout.WellFormed) (size : cells.size = layout.physicalSize)
    (held : layout.shape.Holds index)
    : (repeatUnits cells layout.physicalShape layout.shape 0)[layout.shape.position index]?
      = cells[layout.address index]? := by
  have shows := wf.shows_tiled size
  rw [shows.repeatUnits_eq wf, List.getElem?_map, held.getElem?_indices, wf.address_eq held,
    shows.value index held]
  rfl

/-- A kernel whose counters have the coordinates of an index reads the element at its address. -/
theorem eval_read_address (wf : layout.WellFormed) (size : cells.size = layout.physicalSize)
    (held : layout.shape.Holds index) {element : Pattern}
    (found : cells[layout.address index]? = some element) (arith : Arithmetic) (dtype : DType)
    {sources : List (Array Pattern)} {number : Nat} (stored : sources[number]? = some cells)
    (first : Nat) (env : Counters)
    : (Expr.read number (strided (counters first layout.rank) layout.strides)).eval arith dtype
          sources (env.assign first index)
        = element := by
  have shows := wf.shows_tiled size
  rw [eval_read_strided stored wf shows first held]
  rw [wf.address_eq held, shows.value index held] at found
  exact Option.some.inj found

end Layout.WellFormed

/-- On every desk that callers can come to, a buffer whose node has storage and that shows few enough
elements to be addressed is read under its own type, unless there is no room for so many bytes. What
is read has an element for each index of the shape, in row-major order: the stored one whose place is
the sum of the products of the coordinates and the strides of the view. It is the element that
kernels read under the view, whichever of their sources it is and whatever their counters start from.
-/
theorem Desk.Reachable.readers_agree {desk : Desk} (reached : desk.Reachable) {buffer : Buffer}
    (held : buffer ∈ desk.buffers) {storage : Storage}
    (had : (desk.workspace.graph buffer.graph).storage? buffer.node = some storage)
    (few : buffer.shape.volume < addressRange)
    : let read := (desk.workspace.graph buffer.graph).elements buffer buffer.dtype
      (addressRange ≤ buffer.shape.volume * buffer.dtype.bytes →
        read = .error (.arrangement buffer.node .capacity))
      ∧ (buffer.shape.volume * buffer.dtype.bytes < addressRange →
          ∃ listed,
            read = .ok listed
            ∧ listed.length = buffer.shape.volume
            ∧ ∀ index,
                buffer.shape.Holds index →
                  ∃ element,
                    listed[buffer.shape.position index]? = some element
                    ∧ storage.cells[(index.zipWith (· * ·) buffer.layout.strides).sum]?
                      = some element
                    ∧ ∀ (arith : Arithmetic) (sources : List (Array Pattern)) (number : Nat),
                        sources[number]? = some storage.cells →
                          ∀ (first : Nat) (env : Counters),
                            (Expr.read number
                                  (strided (counters first buffer.rank)
                                    buffer.layout.strides)).eval arith buffer.dtype sources
                                (env.assign first index)
                              = element) := by
  have deskWf := reached.wellFormed
  have has := deskWf.buffers buffer held
  have wf : buffer.layout.WellFormed := has.2.1
  obtain ⟨type, size⟩ := (deskWf.workspace buffer.graph).2.storage_fits has had
  have reads := Graph.elements_of_few wf had size few
  rw [type] at reads
  dsimp only
  rw [reads]
  refine ⟨fun large => if_pos large, ?_⟩
  intro small
  refine ⟨_, if_neg small.not_ge, ?_, ?_⟩
  · have rows
        : repeatUnits storage.cells buffer.layout.physicalShape buffer.shape 0
          = buffer.shape.indices.map (buffer.layout.tiled storage.cells).value :=
      (wf.shows_tiled size).repeatUnits_eq wf
    rw [rows, List.length_map, Shape.length_indices]
  · intro index inside
    obtain ⟨element, found⟩ := wf.exists_element size inside
    refine ⟨element, (wf.getElem?_repeatUnits size inside).trans found, found, ?_⟩
    intro arith sources number stored first env
    exact wf.eval_read_address size inside found arith buffer.dtype stored first env

namespace Desk

/-- A column of two numbers. -/
def sampleColumn : Buffer := ⟨0, 0, .float32, .dense [2, 1]⟩

/-- The column, broadcast to three columns. -/
def sampleColumns : Buffer := ⟨0, 0, .float32, ⟨⟨[2, 3], [1, 3]⟩, [.dense [2, 1]]⟩⟩

/-- The column with its data, and the three columns. -/
def sampleSpread : Desk :=
  (start.call (.ofArray 0 .float32 #[0x3F800000, 0x40000000] [2, 1])).call
    (.expand sampleColumn [2, 3])

theorem reachable_sampleSpread : sampleSpread.Reachable := by
  have data : Reachable (start.call (.ofArray 0 .float32 #[0x3F800000, 0x40000000] [2, 1])) :=
    .step .start (.call _ _ (by decide) (by decide))
  exact data.step (.call _ (.expand sampleColumn [2, 3]) (by decide) (by decide))

/-- The three columns read as six elements, and a kernel finds the fifth of them in the second place.
-/
theorem readers_agree_sample
    : ∃ listed,
        (sampleSpread.workspace.graph 0).elements sampleColumns .float32 = .ok listed
        ∧ listed.length = 6
        ∧ listed[4]? = some 0x40000000
        ∧ (Expr.read 1 (strided [3, 4] [1, 0])).eval .ieee .float32
              [#[], #[0x3F800000, 0x40000000]] (Counters.assign (fun _ => 0) 3 [1, 1])
            = 0x40000000 := by
  have held : sampleColumns ∈ sampleSpread.buffers := by decide
  have had
      : (sampleSpread.workspace.graph sampleColumns.graph).storage? sampleColumns.node
        = some ⟨.float32, #[0x3F800000, 0x40000000]⟩ := by
    decide
  obtain ⟨_, reads⟩ := reachable_sampleSpread.readers_agree held had (by decide)
  obtain ⟨listed, read, length, elements⟩ := reads (by decide)
  have inside : Shape.Holds [2, 3] [1, 1] := by simp
  obtain ⟨element, shown, stored, kernels⟩ := elements [1, 1] inside
  obtain rfl : 0x40000000 = element := Option.some.inj stored
  exact ⟨listed, read, length, shown,
    kernels .ieee [#[], #[0x3F800000, 0x40000000]] 1 rfl 3 fun _ => 0⟩

end Desk

end LazyTensor
