import LazyTensor.Proofs.Shape.Index
import LazyTensor.Proofs.Shape.Permutation

/-! Indices of rearranged shapes. Leaving out a coordinate, exchanging coordinates and moving them
by what is padded in front lead to indices of the shape without the dimension, of the shape in
the other order and of the padded shape. An exchange leads to every index just once.
-/

namespace LazyTensor

namespace Shape

/-- An index without a coordinate is an index of the shape without the dimension, by induction
on the shape.
-/
theorem Holds.eraseIdx {shape : Shape} {index : Index} (held : shape.Holds index) (axis : Nat)
    : Holds (shape.eraseIdx axis) (index.eraseIdx axis) := by
  induction shape generalizing index axis with
  | nil =>
      rw [holds_nil.mp held]
      exact .nil
  | cons extent inner ih =>
      obtain ⟨coordinate, rest, rfl, below, inside⟩ := held.exists_cons
      cases axis with
      | zero => exact inside
      | succ axis => exact holds_cons.mpr ⟨below, ih inside axis⟩

/-- An index with one more coordinate is an index of the shape with the dimension, by induction
on the shape.
-/
theorem Holds.insertIdx {shape : Shape} {axis : Nat} {index : Index}
    (held : Holds (shape.eraseIdx axis) index) (inside : axis < shape.length) {coordinate : Nat}
    (below : coordinate < shape.getD axis 0)
    : shape.Holds (index.insertIdx axis coordinate) := by
  induction shape generalizing index axis with
  | nil => cases inside
  | cons extent inner ih =>
      cases axis with
      | zero => exact holds_cons.mpr ⟨below, held⟩
      | succ axis =>
          obtain ⟨head, rest, rfl, first, others⟩ := held.exists_cons
          exact holds_cons.mpr ⟨first, ih others (Nat.lt_of_succ_lt_succ inside) below⟩

/-- The indices that are equal without a coordinate, in row-major order: the coordinate counts
up. By induction on the shape; in front of the dimension one block only has such indices.
-/
theorem filter_eraseIdx {shape : Shape} {axis : Nat} {index : Index}
    (held : Holds (shape.eraseIdx axis) index) (inside : axis < shape.length)
    : (indices shape).filter (·.eraseIdx axis = index)
      = (List.range (shape.getD axis 0)).map fun coordinate => index.insertIdx axis coordinate := by
  induction shape generalizing index axis with
  | nil => cases inside
  | cons extent inner ih =>
      cases axis with
      | zero =>
          have own : (indices inner).filter (· = index) = [index] :=
            filter_of_single (nodup_indices inner) (mem_indices.mpr held) (by simp)
          have block (coordinate : Nat)
              : ((indices inner).map (coordinate :: ·)).filter (·.eraseIdx 0 = index)
                = [coordinate :: index] := by
            rw [List.filter_map]
            exact congrArg (List.map _) own
          rw [indices, List.filter_flatMap]
          simp only [block]
          exact List.map_eq_flatMap.symm
      | succ axis =>
          obtain ⟨head, rest, rfl, first, others⟩ := held.exists_cons
          have own := ih others (Nat.lt_of_succ_lt_succ inside)
          have block
              : ((indices inner).map (head :: ·)).filter (·.eraseIdx (axis + 1) = head :: rest)
                = (List.range (inner.getD axis 0)).map fun coordinate =>
                    head :: rest.insertIdx axis coordinate := by
            have same
                : (fun whole : Index => decide (whole.eraseIdx (axis + 1) = head :: rest))
                    ∘ (head :: ·)
                  = fun tail => decide (tail.eraseIdx axis = rest) := by
              funext tail
              simp
            rw [List.filter_map, same, own, List.map_map]
            rfl
          -- Only the block of the own first coordinate contributes; the others hold no such index.
          rw [indices, List.filter_flatMap,
            flatMap_of_single List.nodup_range (List.mem_range.mpr first) ?_, block]
          · rfl
          · intro other _ different
            refine List.filter_eq_nil_iff.mpr ?_
            intro whole member
            obtain ⟨tail, _, rfl⟩ := List.mem_map.mp member
            simp [different]

-----------------------------------------------------------------------------------------
-- Dimensions in another order
-----------------------------------------------------------------------------------------

/-- Picking entries that are there is looking them up. -/
theorem permutedShape_eq_map {values order : List Nat}
    (accepted : isPermutation order values.length = true)
    : Buffer.permutedShape values order = order.map (values.getD · 0) := by
  rw [Buffer.permutedShape, ← List.filterMap_eq_map]
  refine List.filterMap_congr ?_
  intro axis member
  have inside := (mem_iff_of_isPermutation accepted).mp member
  simp [List.getD_eq_getElem?_getD, inside]

/-- An index in another order is an index of the shape in that order. -/
theorem Holds.permute {shape : Shape} {index : Index} (held : shape.Holds index)
    {order : List Nat} (accepted : isPermutation order shape.length = true)
    : Holds (Buffer.permutedShape shape order) (Buffer.permutedShape index order) := by
  rw [permutedShape_eq_map accepted, permutedShape_eq_map (held.length_eq.symm ▸ accepted)]
  refine List.forall₂_map_left_iff.mpr (List.forall₂_map_right_iff.mpr (List.forall₂_same.mpr ?_))
  intro axis member
  have inShape := (mem_iff_of_isPermutation accepted).mp member
  have inIndex : axis < index.length := held.length_eq ▸ inShape
  simpa [List.getD_eq_getElem?_getD, inShape, inIndex] using held.getElem_lt inIndex inShape

/-- Two indices that are equal in another order are equal. -/
theorem permutedShape_injective {left right order : List Nat}
    (accepted : isPermutation order left.length = true) (length : left.length = right.length)
    (same : Buffer.permutedShape left order = Buffer.permutedShape right order)
    : left = right := by
  rw [permutedShape_eq_map accepted, permutedShape_eq_map (length ▸ accepted)] at same
  refine List.ext_getElem length ?_
  intro axis inLeft inRight
  have member := (mem_iff_of_isPermutation accepted).mpr inLeft
  have entry := List.map_inj_left.mp same axis member
  simpa [List.getD_eq_getElem?_getD, inLeft, inRight] using entry

/-- The index that becomes a given one in another order: each coordinate is looked up at the
place of its axis in the order.
-/
def unpermute (order : List Nat) (index : Index) : Index :=
  (List.range order.length).map fun axis => index.getD (order.idxOf axis) 0

/-- Every index of a shape in another order comes from an index of the shape. -/
theorem Holds.unpermute {shape : Shape} {order : List Nat} {index : Index}
    (accepted : isPermutation order shape.length = true)
    (held : Holds (Buffer.permutedShape shape order) index)
    : shape.Holds (unpermute order index)
      ∧ Buffer.permutedShape (Shape.unpermute order index) order = index := by
  have length := length_of_isPermutation accepted
  have unique := nodup_of_isPermutation accepted
  have sizes : index.length = order.length := by
    rw [held.length_eq, permutedShape_eq_map accepted, List.length_map]
  constructor
  · refine holds_of_getElem_lt (by simp [Shape.unpermute, length]) ?_
    intro axis _ inShape
    have member := (mem_iff_of_isPermutation accepted).mpr inShape
    have place := List.idxOf_lt_length_of_mem member
    have below := held.getElem_lt (sizes ▸ place) (held.length_eq ▸ sizes ▸ place)
    simp only [permutedShape_eq_map accepted, List.getElem_map, List.getElem_idxOf] at below
    simpa [Shape.unpermute, List.getD_eq_getElem?_getD, sizes ▸ place, inShape] using below
  · rw [permutedShape_eq_map (by simpa [Shape.unpermute, length] using accepted)]
    refine List.ext_getElem (by simp [sizes]) ?_
    intro place inOrder inIndex
    rw [List.length_map] at inOrder
    have member := List.getElem_mem inOrder
    have below := (mem_iff_of_isPermutation accepted).mp member
    simp [Shape.unpermute, List.getD_eq_getElem?_getD, length, below,
      unique.idxOf_getElem place inOrder, inIndex]

/-- The indices in another order are those of the shape in that order, each just once. -/
theorem map_permutedShape_indices {shape : Shape} {order : List Nat}
    (accepted : isPermutation order shape.length = true)
    : (shape.indices.map (Buffer.permutedShape · order)).Perm
        (indices (Buffer.permutedShape shape order)) := by
  have unique : (shape.indices.map (Buffer.permutedShape · order)).Nodup := by
    refine shape.nodup_indices.map_on ?_
    intro left leftListed right rightListed same
    have leftLength := (mem_indices.mp leftListed).length_eq
    have rightLength := (mem_indices.mp rightListed).length_eq
    exact permutedShape_injective (leftLength.symm ▸ accepted) (leftLength.trans rightLength.symm)
      same
  refine (List.perm_ext_iff_of_nodup unique (nodup_indices _)).mpr ?_
  intro index
  rw [List.mem_map, mem_indices]
  constructor
  · intro given
    obtain ⟨inner, listed, rfl⟩ := given
    exact (mem_indices.mp listed).permute accepted
  · intro held
    obtain ⟨inner, same⟩ := Holds.unpermute accepted held
    exact ⟨unpermute order index, mem_indices.mpr inner, same⟩

/-- The places of all axes in an order, which is the order that undoes it. -/
def inverseOrder (order : List Nat) : List Nat := (List.range order.length).map order.idxOf

/-- The order that undoes an accepted order is accepted: the places of the axes of the order, taken
as they come, count up.
-/
theorem isPermutation_inverseOrder {order : List Nat} {rank : Nat}
    (accepted : isPermutation order rank = true)
    : isPermutation (inverseOrder order) rank = true := by
  have length := length_of_isPermutation accepted
  have unique := nodup_of_isPermutation accepted
  have counting : order.map order.idxOf = List.range rank := by
    refine List.ext_getElem (by simp [length]) ?_
    intro place _ inRange
    have inOrder : place < order.length := by simpa [length] using inRange
    rw [List.getElem_map, List.getElem_range, unique.idxOf_getElem place inOrder]
  refine isPermutation_iff.mpr ?_
  rw [inverseOrder, length]
  exact ((isPermutation_iff.mp accepted).symm.map order.idxOf).trans (.of_eq counting)

/-- The axis that comes to a place is found at this place by the order that undoes. -/
theorem getElem?_inverseOrder {order : List Nat} {rank : Nat}
    (accepted : isPermutation order rank = true) {place : Nat} (inside : place < rank)
    : (inverseOrder order)[order.getD place 0]? = some place := by
  have length := length_of_isPermutation accepted
  have inOrder : place < order.length := length ▸ inside
  have below := (mem_iff_of_isPermutation accepted).mp (List.getElem_mem inOrder)
  rw [inverseOrder, length, List.getElem?_map, List.getD_eq_getElem?_getD,
    List.getElem?_eq_getElem inOrder, Option.getD_some, List.getElem?_range below,
    Option.map_some, (nodup_of_isPermutation accepted).idxOf_getElem place inOrder]

/-- Entries in an order are found again at the places of their axes. -/
theorem unpermute_permutedShape {values order : List Nat}
    (accepted : isPermutation order values.length = true)
    : unpermute order (Buffer.permutedShape values order) = values := by
  have length := length_of_isPermutation accepted
  rw [permutedShape_eq_map accepted]
  refine List.ext_getElem (by simp [unpermute, length]) ?_
  intro axis _ inside
  have place := List.idxOf_lt_length_of_mem ((mem_iff_of_isPermutation accepted).mpr inside)
  simp [unpermute, List.getD_eq_getElem?_getD, place, inside]

/-- Entries in an order come back to where they were in the order that undoes it. -/
theorem permutedShape_inverseOrder {values order : List Nat}
    (accepted : isPermutation order values.length = true)
    : Buffer.permutedShape (Buffer.permutedShape values order) (inverseOrder order) = values := by
  have length := (Buffer.permutedShape_perm accepted).length_eq
  rw [permutedShape_eq_map (length.symm ▸ isPermutation_inverseOrder accepted), inverseOrder,
    List.map_map]
  exact unpermute_permutedShape accepted

-----------------------------------------------------------------------------------------
-- Padded dimensions
-----------------------------------------------------------------------------------------

/-- An index moved by what is padded in front of each dimension. -/
def shift (padding : List (Nat × Nat)) (index : Index) : Index :=
  index.zipWith (fun coordinate pair => coordinate + pair.1) padding

/-- A padded shape grows by what is added on both sides, by induction on the dimensions. -/
theorem paddedShape_eq {shape padded : Shape} {padding : List (Nat × Nat)}
    (done : Buffer.paddedShape shape padding = some padded)
    : padded = shape.zipWith (fun extent pair => extent + pair.1 + pair.2) padding := by
  induction shape generalizing padding padded with
  | nil => exact (Option.some.inj done).symm
  | cons extent inner ih =>
      cases padding with
      | nil => exact (Option.some.inj done).symm
      | cons pair rest =>
          rw [Buffer.paddedShape, List.zip_cons_cons, List.mapM_cons, ← Buffer.paddedShape] at done
          simp only [Option.bind_eq_bind, Option.bind_eq_some_iff, checkedAdd,
            Option.ite_none_right_eq_some, Option.some.injEq, Option.pure_def] at done
          obtain ⟨grown, ⟨front, ⟨_, rfl⟩, _, rfl⟩, others, tail, rfl⟩ := done
          rw [ih tail]
          rfl

/-- A moved index is an index of the padded shape, by induction on the shape. -/
theorem Holds.shift {shape : Shape} {index : Index} (held : shape.Holds index)
    {padding : List (Nat × Nat)} (length : padding.length = shape.length)
    : Holds (shape.zipWith (fun extent pair => extent + pair.1 + pair.2) padding)
        (shift padding index) := by
  induction shape generalizing index padding with
  | nil =>
      rw [holds_nil.mp held]
      exact .nil
  | cons extent inner ih =>
      obtain ⟨coordinate, rest, rfl, below, inside⟩ := held.exists_cons
      cases padding with
      | nil => cases length
      | cons pair others =>
          refine holds_cons.mpr ⟨?_, ih inside (Nat.succ.inj length)⟩
          show coordinate + pair.1 < extent + pair.1 + pair.2
          omega

/-- The index that was moved to a given one by what is padded in front, if there is one. -/
def unshift : Shape → List (Nat × Nat) → Index → Option Index
  | extent :: inner, pair :: padding, coordinate :: rest =>
      if pair.1 ≤ coordinate ∧ coordinate < pair.1 + extent then
        (unshift inner padding rest).map fun tail => (coordinate - pair.1) :: tail
      else none
  | _, _, _ => some []

/-- An index is found behind another one if and only if it was moved there, by induction on the
shape.
-/
theorem unshift_eq_some_iff {shape : Shape} {padding : List (Nat × Nat)} {index inner : Index}
    (length : padding.length = shape.length) (same : index.length = shape.length)
    : unshift shape padding index = some inner ↔ shape.Holds inner ∧ shift padding inner = index := by
  induction shape generalizing padding index inner with
  | nil =>
      obtain rfl := List.length_eq_zero_iff.mp same
      simp only [unshift, Option.some.injEq, holds_nil]
      constructor
      · intro same
        subst same
        exact ⟨rfl, rfl⟩
      · exact fun found => found.1.symm
  | cons extent shape ih =>
      obtain ⟨pair, padding, rfl⟩ := List.exists_cons_of_length_eq_add_one length
      obtain ⟨coordinate, rest, rfl⟩ := List.exists_cons_of_length_eq_add_one same
      have behind (tail : Index)
          : unshift shape padding rest = some tail
            ↔ Holds shape tail ∧ shift padding tail = rest :=
        ih (Nat.succ.inj length) (Nat.succ.inj same)
      rw [unshift, Option.ite_none_right_eq_some]
      simp only [Option.map_eq_some_iff, behind]
      constructor
      · intro given
        rcases given with ⟨between, tail, ⟨held, rfl⟩, rfl⟩
        have front : coordinate - pair.1 + pair.1 = coordinate := Nat.sub_add_cancel between.1
        refine ⟨holds_cons.mpr ⟨by omega, held⟩, ?_⟩
        rw [shift, List.zipWith_cons_cons, front]
        rfl
      · intro given
        rcases given with ⟨held, moved⟩
        obtain ⟨first, tail, rfl, below, others⟩ := held.exists_cons
        obtain ⟨front, back⟩ := List.cons.inj moved
        change first + pair.1 = coordinate at front
        subst front
        refine ⟨by omega, tail, ⟨others, back⟩, ?_⟩
        rw [Nat.add_sub_cancel]

/-- In every dimension an index lies behind what is padded in front and before what is padded
after.
-/
def Between (shape : Shape) (padding : List (Nat × Nat)) (index : Index) : Prop :=
  ∀ axis < shape.length,
    (padding.getD axis (0, 0)).1 ≤ index.getD axis 0
    ∧ index.getD axis 0 < (padding.getD axis (0, 0)).1 + shape.getD axis 0

instance (shape : Shape) (padding : List (Nat × Nat)) (index : Index)
    : Decidable (shape.Between padding index) :=
  inferInstanceAs (Decidable (∀ axis < shape.length, _))

theorem between_cons {extent : Nat} {inner : Shape} {pair : Nat × Nat}
    {padding : List (Nat × Nat)} {coordinate : Nat} {rest : Index}
    : Between (extent :: inner) (pair :: padding) (coordinate :: rest)
      ↔ (pair.1 ≤ coordinate ∧ coordinate < pair.1 + extent) ∧ Between inner padding rest :=
  Nat.forall_lt_succ_left

/-- An index was moved to where it is if it lies between what is padded, and then each coordinate
by what is padded in front, by induction on the shape.
-/
theorem unshift_eq {shape : Shape} {padding : List (Nat × Nat)} {index : Index}
    (length : padding.length = shape.length) (same : index.length = shape.length)
    : unshift shape padding index
      = if shape.Between padding index then
          some (index.zipWith (fun coordinate pair => coordinate - pair.1) padding)
        else none := by
  induction shape generalizing padding index with
  | nil =>
      obtain rfl := List.length_eq_zero_iff.mp same
      rfl
  | cons extent inner ih =>
      obtain ⟨pair, padding, rfl⟩ := List.exists_cons_of_length_eq_add_one length
      obtain ⟨coordinate, rest, rfl⟩ := List.exists_cons_of_length_eq_add_one same
      rw [unshift, ih (Nat.succ.inj length) (Nat.succ.inj same)]
      simp only [between_cons]
      by_cases first : pair.1 ≤ coordinate ∧ coordinate < pair.1 + extent
      · by_cases others : Between inner padding rest
        · simp [first, others]
        · simp [first, others]
      · simp [first]

end Shape

end LazyTensor
