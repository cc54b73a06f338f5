import LazyTensor.Proofs.Kernel.Emission

/-! Kernels that move elements. An exchange of dimensions goes through the indices of its source
and scatters the elements over the output, where it writes every place just once; the order that
undoes the exchange brings every element back. Padding writes zeros everywhere and moves the
elements to between what is padded.
-/

namespace LazyTensor

open Kernel

/-- A dense storage has what it shows at an index at the position of the index. -/
theorem Layout.WellFormed.getElem?_position {layout : Layout} (wf : layout.WellFormed)
    {shape : Shape} (dense : layout = .dense shape) {cells : Array Pattern}
    (stored : cells.size = layout.physicalSize) {index : Index} (held : shape.Holds index)
    : cells[shape.position index]? = some ((layout.tiled cells).value index) := by
  subst dense
  have shown := (wf.shows_tiled stored).value index held
  rwa [Layout.place_dense held] at shown

namespace Kernel

-----------------------------------------------------------------------------------------
-- Dimensions in another order
-----------------------------------------------------------------------------------------

/-- An exchange of dimensions writes every place of its output just once: the places are the
positions of the indices in the other order.
-/
theorem writes_permuteKernel {order : List Nat} {source : Layout} (wf : source.WellFormed)
    (accepted : isPermutation order source.rank = true) (env : Counters)
    : (((permuteKernel order source (Buffer.permutedShape source.shape order)).points env).flatMap
          Point.writes).Perm
        (List.range (Shape.size (Buffer.permutedShape source.shape order))) := by
  have fits : source.shape.Fits := wf.current.fits
  have places
      : ((permuteKernel order source (Buffer.permutedShape source.shape order)).points env).flatMap
          Point.writes
        = (source.shape.indices.map (Buffer.permutedShape · order)).map
            (Shape.position (Buffer.permutedShape source.shape order)) := by
    rw [permuteKernel, points_nest, List.flatMap_assoc, List.map_map, List.map_eq_flatMap]
    refine List.flatMap_congr ?_
    intro index listed
    exact congrArg (fun place => [place])
      (eval_permuted fits accepted env 0 (Shape.mem_indices.mp listed))
  rw [places, (fits.perm (Buffer.permutedShape_perm accepted).symm).size_eq,
    ← Shape.map_position_indices]
  exact (Shape.map_permutedShape_indices accepted).map _

/-- An exchange of dimensions leaves each element at the position of its index in the other
order.
-/
theorem permuteKernel_moves {arith : Arithmetic} {dtype : DType} {env : Counters} {memory : Memory}
    {order : List Nat} {source : Layout} (wf : source.WellFormed)
    (accepted : isPermutation order source.rank = true) {cells : Array Pattern}
    (stored : cells.size = source.physicalSize) {result : Shape}
    (permuted : result = Buffer.permutedShape source.shape order)
    (size : memory.out.size = Shape.size result) {index : Index}
    (held : source.shape.Holds index)
    : ((permuteKernel order source result).run arith dtype [cells] env memory).out[
          result.position (Buffer.permutedShape index order)]?
        = some ((source.tiled cells).value index) := by
  have own : isPermutation order index.length = true := by
    rw [held.length_eq]
    exact accepted
  have moved : result.Holds (Buffer.permutedShape index order) := permuted ▸ held.permute accepted
  rw [permuteKernel_shows wf accepted (wf.shows_tiled stored) permuted size moved,
    LogicalArray.permuted, Shape.unpermute_permutedShape own]

/-- An exchange of dimensions has no constants. -/
theorem narrowed_permuteKernel (arith : Arithmetic) (dtype : DType) (order : List Nat)
    (source : Layout) (result : Shape)
    : ∀ bits ∈ (permuteKernel order source result).constants,
        arith.constant dtype (dtype.narrowed bits) = arith.constant dtype bits := by
  rw [permuteKernel, constants_nest]
  exact List.forall_mem_nil _

-----------------------------------------------------------------------------------------
-- Padded dimensions
-----------------------------------------------------------------------------------------

/-- The zeros of a padding are the same as they are printed. -/
theorem narrowed_padKernel (arith : Arithmetic) (dtype : DType) (padding : List (Nat × Nat))
    (source : Layout) (result : Shape)
    : ∀ bits ∈ (padKernel padding source result).constants,
        arith.constant dtype (dtype.narrowed bits) = arith.constant dtype bits := by
  rw [padKernel, Stmt.constants, constants_nest]
  exact List.forall_mem_singleton.mpr (congrArg _ (dtype.narrowed_identity .sum))

/-- Padding leaves the elements between what is padded, each moved by what is in front of it, and
zero around them.
-/
theorem padKernel_moves {arith : Arithmetic} {dtype : DType} {env : Counters} {memory : Memory}
    (standard : arith.Standard) {padding : List (Nat × Nat)} {source : Layout}
    (wf : source.WellFormed) (length : padding.length = source.rank) {cells : Array Pattern}
    (stored : cells.size = source.physicalSize) {result : Shape}
    (padded : Buffer.paddedShape source.shape padding = some result) (fits : result.Fits)
    (size : memory.out.size = Shape.size result) {index : Index} (held : result.Holds index)
    : ((padKernel padding source result).run arith dtype [cells] env memory).out[
          result.position index]?
        = some
            (if source.shape.Between padding index then
              (source.tiled cells).value
                (index.zipWith (fun coordinate pair => coordinate - pair.1) padding)
            else 0) := by
  have shown := wf.shows_tiled stored
  have rank : index.length = source.shape.length := by
    rw [held.length_eq, Shape.paddedShape_eq padded, List.length_zipWith, length]
    exact Nat.min_self _
  rw [padKernel_shows standard wf length shown padded fits size held, LogicalArray.padded,
    shown.shape, Shape.unshift_eq length rank]
  by_cases between : source.shape.Between padding index
  · simp only [if_pos between]
  · simp only [if_neg between]

end Kernel

namespace Desk

variable {desk : Desk}

/-- An exchange of the dimensions of a buffer in an accepted order is recorded. -/
theorem records_permute {source : Buffer} (held : source ∈ desk.buffers) {order : List Nat}
    (accepted : isPermutation order source.rank = true)
    : ∃ result,
        desk.Records (.permute source order) source (.movement .permute) (some (.order order))
          (.dense (Buffer.permutedShape source.shape order)) result := by
  have ends
      : Ends (source.permute order) (desk.workspace.graph source.graph)
          (Build.Records (desk.workspace.graph source.graph)
            ⟨.movement .permute, [source.source], some (.order order)⟩ source.dtype
            (.dense (Buffer.permutedShape source.shape order)))
          (fun _ _ => False) := by
    simp only [Buffer.permute, ends_bind, Build.ends_require, if_pos accepted]
    exact ⟨.permute source.source accepted, rfl, rfl⟩
  obtain ⟨result, answer, recorded⟩ := ends.exists_ok
  exact ⟨result, held, rfl, rfl, answer, recorded⟩

/-- An exchange of dimensions that is recorded is emitted as a function that writes every place of
its output just once, and leaves there the elements in the other order.
-/
theorem Records.emits_permute {source result : Buffer} {order : List Nat}
    (records
      : desk.Records (.permute source order) source (.movement .permute) (some (.order order))
          (.dense (Buffer.permutedShape source.shape order)) result)
    (reached : desk.Reachable) (accepted : isPermutation order source.rank = true)
    : ∃ routine,
        (desk.call (.permute source order)).Emits result routine
        ∧ ((routine.body.points fun _ => 0).flatMap Point.writes).Perm
            (List.range result.layout.physicalSize)
        ∧ ∀ (arith : Arithmetic) (cells out : Array Pattern),
            cells.size = source.layout.physicalSize
            → out.size = result.layout.physicalSize
            → let done := routine.apply arith out [cells]
              ((∀ stored ∈ [out, cells], stored.size < 2 ^ 63) →
                routine.exec arith out [cells] = some done)
              ∧ done.size = out.size
              ∧ ∀ index,
                  source.shape.Holds index →
                    done[result.shape.position (Buffer.permutedShape index order)]?
                      = some ((source.layout.tiled cells).value index) := by
  have wf := (reached.wellFormed.buffers source records.held).2.1
  have dense := records.layout_eq
  have shape := Buffer.shape_of_dense dense
  have size : result.layout.physicalSize = Shape.size result.shape := by
    rw [dense, Layout.physicalSize_dense, shape]
  have runs : records.task.Runs (permuteKernel order source.layout result.shape) :=
    .permute source result accepted dense
  refine ⟨_, records.emits reached runs, ?_, ?_⟩
  · rw [size, shape]
    exact (Stmt.writes_printed _ _ _).symm ▸ writes_permuteKernel wf accepted _
  · intro arith cells out stored outSize
    have known := narrowed_permuteKernel arith result.dtype order source.layout result.shape
    refine ⟨fun few => ?_, size_apply _ out, ?_⟩
    · have words := records.exec_routine reached runs known stored outSize few
      exact words.trans (if_pos (List.forall_mem_nil _))
    · intro index inSource
      refine (congrArg (·[_]?) (Task.apply_routine known _ _)).trans ?_
      exact permuteKernel_moves wf accepted stored shape (outSize.trans size) inSource

/-- On every desk that callers can come to, an accepted exchange of the dimensions of a buffer is
emitted: its text is read as a function that writes every place of its output just once. Over any
stored elements of the buffer, and whatever the output held before, the function leaves each element
at the row-major position of its coordinates in the order. The order that has for each axis its place
in this order is accepted for the answer, and the function of that exchange brings every element
back. In words both do the same, with arrays that can be stored.
-/
theorem Reachable.permute_moves (reached : desk.Reachable) {source : Buffer}
    (held : source ∈ desk.buffers) {order : List Nat} {result : Buffer}
    (answer : (desk.workspace.build source.graph (source.permute order)).1 = .ok result)
    : let next := desk.call (.permute source order)
      let back := Shape.inverseOrder order
      ∃ routine restored undo,
        result.layout = .dense (order.map (source.shape.getD · 0))
        ∧ next.Emits result routine
        ∧ ((routine.body.points fun _ => 0).flatMap Point.writes).Perm
            (List.range result.layout.physicalSize)
        ∧ (∀ place < source.rank, back[order.getD place 0]? = some place)
        ∧ (next.workspace.build result.graph (result.permute back)).1 = .ok restored
        ∧ restored.layout = .dense source.shape
        ∧ (next.call (.permute result back)).Emits restored undo
        ∧ ∀ (arith : Arithmetic) (cells out other : Array Pattern),
            cells.size = source.layout.physicalSize
            → out.size = result.layout.physicalSize
            → other.size = restored.layout.physicalSize
            → let done := routine.apply arith out [cells]
              let undone := undo.apply arith other [done]
              ((∀ stored ∈ [cells, out, other], stored.size < 2 ^ 63) →
                routine.exec arith out [cells] = some done
                ∧ undo.exec arith other [done] = some undone)
              ∧ done.size = out.size
              ∧ undone.size = other.size
              ∧ ∀ index,
                  source.shape.Holds index →
                    done[result.shape.position (order.map (index.getD · 0))]?
                      = some ((source.layout.tiled cells).value index)
                    ∧ undone[source.shape.position index]?
                      = some ((source.layout.tiled cells).value index) := by
  intro next back
  have accepted : isPermutation order source.shape.length = true :=
    ((Buffer.permute_ends source order _).of_ok answer).1
  obtain ⟨same, records⟩ := records_permute held accepted
  obtain rfl : result = same := Except.ok.inj (answer.symm.trans records.answer)
  have dense := records.layout_eq
  have shape := Buffer.shape_of_dense dense
  have nextReached : next.Reachable := records.reachable reached
  have resultHeld : result ∈ next.buffers := records.mem_buffers
  have rank : result.rank = source.shape.length := by
    rw [← (Buffer.permutedShape_perm accepted).length_eq, ← shape]
    rfl
  have backAccepted : isPermutation back result.rank = true :=
    rank ▸ Shape.isPermutation_inverseOrder accepted
  obtain ⟨restored, undoes⟩ := records_permute resultHeld backAccepted
  -- The two orders undo each other, here in the shape and below in each index.
  have restoredDense : restored.layout = .dense source.shape := by
    rw [undoes.layout_eq, shape, Shape.permutedShape_inverseOrder accepted]
  obtain ⟨routine, emits, writes, moves⟩ := records.emits_permute reached accepted
  obtain ⟨undo, undoEmits, _, restores⟩ := undoes.emits_permute nextReached backAccepted
  refine ⟨routine, restored, undo, dense.trans (congrArg _ (Shape.permutedShape_eq_map accepted)),
    emits, writes, fun place => Shape.getElem?_inverseOrder accepted, undoes.answer,
    restoredDense, undoEmits, ?_⟩
  intro arith cells out other cellsSize outSize otherSize done undone
  obtain ⟨words, doneSize, moved⟩ := moves arith cells out cellsSize outSize
  have stored : done.size = result.layout.physicalSize := doneSize.trans outSize
  obtain ⟨undoWords, undoneSize, restoredAt⟩ := restores arith done other stored otherSize
  refine ⟨?_, doneSize, undoneSize, ?_⟩
  · simp only [List.forall_mem_cons]
    rintro ⟨fewCells, fewOut, fewOther, none⟩
    have fewDone : done.size < 2 ^ 63 := doneSize ▸ fewOut
    exact ⟨words (List.forall_mem_cons.mpr ⟨fewOut, List.forall_mem_singleton.mpr fewCells⟩),
      undoWords (List.forall_mem_cons.mpr ⟨fewOther, List.forall_mem_singleton.mpr fewDone⟩)⟩
  intro index inSource
  have own : isPermutation order index.length = true := inSource.length_eq ▸ accepted
  rw [← Shape.permutedShape_eq_map own]
  refine ⟨moved index inSource, ?_⟩
  have inResult : result.shape.Holds (Buffer.permutedShape index order) :=
    shape ▸ inSource.permute accepted
  have resultWf : result.layout.WellFormed :=
    (nextReached.wellFormed.buffers result resultHeld).2.1
  -- What the second kernel reads at an index is what the first one has left there.
  have shown := resultWf.getElem?_position dense stored (shape ▸ inResult)
  have again := restoredAt _ inResult
  rw [Shape.permutedShape_inverseOrder own, Buffer.shape_of_dense restoredDense] at again
  rw [← shape] at shown
  exact again.trans (shown.symm.trans (moved index inSource))

/-- Two rows of three elements, each broadcast to four rows. -/
def sampleBlock : Buffer := ⟨0, 0, .float32, ⟨⟨[2, 4, 3], [1, 4, 1]⟩, [.dense [2, 1, 3]]⟩⟩

/-- The block with its dimensions taken round. -/
def sampleTurned : Buffer := ⟨0, 1, .float32, .dense [4, 3, 2]⟩

/-- Two rows of ones that are broadcast. -/
def sampleBlocks : Desk :=
  (start.call (.fill 0 .constant [2, 1, 3] (some (.value 0x3FF0000000000000)) .float32)).call
    (.expand ⟨0, 0, .float32, .dense [2, 1, 3]⟩ [2, 4, 3])

theorem reachable_sampleBlocks : Reachable sampleBlocks := by
  have filled
      : Reachable
          (start.call (.fill 0 .constant [2, 1, 3] (some (.value 0x3FF0000000000000)) .float32)) :=
    .step .start (.call _ _ (by decide) (by decide))
  exact .step filled (.call _ _ (by decide) (by decide))

/-- The dimensions of a broadcast block are taken round, in an order that does not undo itself, and
back: the first element of the second stored row comes to the place of its coordinates each time.
-/
theorem permute_moves_sample
    : let turned := sampleBlocks.call (.permute sampleBlock [1, 2, 0])
      ∃ routine undo,
        turned.Emits sampleTurned routine
        ∧ (turned.call (.permute sampleTurned [2, 0, 1])).Emits
            ⟨0, 2, .float32, .dense [2, 4, 3]⟩ undo
        ∧ ∀ (arith : Arithmetic) (a b c d e f : Pattern),
            ∃ done undone,
              routine.exec arith (Array.replicate 24 7) [#[a, b, c, d, e, f]] = some done
              ∧ undo.exec arith (Array.replicate 24 7) [done] = some undone
              ∧ done[13]? = some d
              ∧ undone[18]? = some d := by
  have held : sampleBlock ∈ sampleBlocks.buffers := by decide
  have answer
      : (sampleBlocks.workspace.build sampleBlock.graph (sampleBlock.permute [1, 2, 0])).1
        = .ok sampleTurned := by
    rfl
  obtain ⟨routine, restored, undo, _, emits, _, _, again, _, undoEmits, leaves⟩ :=
    reachable_sampleBlocks.permute_moves held answer
  obtain rfl : (⟨0, 2, .float32, .dense [2, 4, 3]⟩ : Buffer) = restored := Except.ok.inj again
  refine ⟨routine, undo, emits, undoEmits, ?_⟩
  intro arith a b c d e f
  obtain ⟨words, _, _, elements⟩ :=
    leaves arith #[a, b, c, d, e, f] (Array.replicate 24 7) (Array.replicate 24 7) rfl rfl rfl
  obtain ⟨first, second⟩ := words (by simp)
  have inBlock : Shape.Holds [2, 4, 3] [1, 2, 0] := by simp
  obtain ⟨there, back⟩ := elements [1, 2, 0] inBlock
  exact ⟨_, _, first, second, there, back⟩

-----------------------------------------------------------------------------------------
-- Padded dimensions
-----------------------------------------------------------------------------------------

/-- A padding of a buffer that is accepted is recorded. -/
theorem records_pad {source : Buffer} (held : source ∈ desk.buffers) {padding : List (Nat × Nat)}
    {result : Buffer}
    (answer : (desk.workspace.build source.graph (source.pad padding)).1 = .ok result)
    : ∃ shape,
        desk.Records (.pad source padding) source (.movement .pad) (some (.padding padding))
          (.dense shape) result
        ∧ padding.length = source.rank
        ∧ Buffer.paddedShape source.shape padding = some shape := by
  obtain ⟨shape, _, recorded⟩ := (Buffer.pad_ends source padding _).of_ok answer
  have yields := recorded.yields
  generalize dense : Layout.dense shape = layout at yields
  cases yields with
  | @pad _ _ other length padded =>
      obtain rfl : shape = other := congrArg Layout.shape dense
      exact ⟨shape, ⟨held, rfl, rfl, answer, recorded⟩, length, padded⟩

/-- On every desk that callers can come to, an accepted padding of a buffer is emitted. Over any
stored elements of the buffer, and whatever the output held before, the function that the text is read
as leaves at the row-major position of each index of the padded shape the element that padding in
front moves there, where the index lies between what is padded in every dimension, and zero elsewhere.
In words it does the same, with arrays that can be stored.
-/
theorem Reachable.pad_moves (reached : desk.Reachable) {source : Buffer}
    (held : source ∈ desk.buffers) {padding : List (Nat × Nat)} {result : Buffer}
    (answer : (desk.workspace.build source.graph (source.pad padding)).1 = .ok result)
    : ∃ routine,
        result.layout
          = .dense (source.shape.zipWith (fun extent pair => extent + pair.1 + pair.2) padding)
        ∧ (desk.call (.pad source padding)).Emits result routine
        ∧ ∀ (arith : Arithmetic) (cells out : Array Pattern),
            arith.Standard
            → cells.size = source.layout.physicalSize
            → out.size = result.layout.physicalSize
            → let done := routine.apply arith out [cells]
              ((∀ stored ∈ [out, cells], stored.size < 2 ^ 63) →
                routine.exec arith out [cells] = some done)
              ∧ done.size = out.size
              ∧ ∀ index,
                  result.shape.Holds index →
                    done[result.shape.position index]?
                      = some
                          (if source.shape.Between padding index then
                            (source.layout.tiled cells).value
                              (index.zipWith (fun coordinate pair => coordinate - pair.1) padding)
                          else 0) := by
  obtain ⟨shape, records, length, padded⟩ := records_pad held answer
  have wf := (reached.wellFormed.buffers source held).2.1
  have resultWf : result.layout.WellFormed :=
    ((records.reachable reached).wellFormed.buffers result records.mem_buffers).2.1
  have dense := records.layout_eq
  obtain rfl : result.shape = shape := Buffer.shape_of_dense dense
  have runs : records.task.Runs (padKernel padding source.layout result.shape) :=
    .pad source result length padded dense
  refine ⟨_, dense.trans (congrArg _ (Shape.paddedShape_eq padded)), records.emits reached runs, ?_⟩
  intro arith cells out standard stored outSize
  have known := narrowed_padKernel arith result.dtype padding source.layout result.shape
  refine ⟨fun few => ?_, size_apply _ out, ?_⟩
  · have words := records.exec_routine reached runs known stored outSize few
    exact words.trans (if_pos (List.forall_mem_nil _))
  · intro index inResult
    rw [dense, Layout.physicalSize_dense] at outSize
    refine (congrArg (·[_]?) (Task.apply_routine known _ _)).trans ?_
    exact padKernel_moves standard wf length stored padded resultWf.current.fits outSize inResult

/-- Rows that are broadcast are padded by a row in front and two columns at the end: each row ends
with zeros, and the element of the second column comes down by one row.
-/
theorem pad_moves_sample
    : ∃ routine,
        (sample.call (.pad sampleRows [(1, 0), (0, 2)])).Emits
          ⟨0, 3, .float32, .dense [3, 5]⟩ routine
        ∧ ∀ first second third : Pattern,
            ∃ done,
              routine.exec .ieee (Array.replicate 15 7) [#[first, second, third]] = some done
              ∧ done[1]? = some 0
              ∧ done[11]? = some second
              ∧ done[13]? = some 0 := by
  have held : sampleRows ∈ sample.buffers := by decide
  have answer
      : (sample.workspace.build sampleRows.graph (sampleRows.pad [(1, 0), (0, 2)])).1
        = .ok ⟨0, 3, .float32, .dense [3, 5]⟩ := by
    rfl
  obtain ⟨routine, _, emits, leaves⟩ := reachable_sample.pad_moves held answer
  refine ⟨routine, emits, ?_⟩
  intro first second third
  obtain ⟨words, _, elements⟩ :=
    leaves .ieee #[first, second, third] (Array.replicate 15 7) Arithmetic.ieee_standard rfl rfl
  have above : Shape.Holds [3, 5] [0, 1] := by simp
  have inside : Shape.Holds [3, 5] [2, 1] := by simp
  have behind : Shape.Holds [3, 5] [2, 3] := by simp
  exact ⟨_, words (by simp), elements [0, 1] above, elements [2, 1] inside, elements [2, 3] behind⟩

end Desk

end LazyTensor
