import LazyTensor.Proofs.Layout.WellFormed
import LazyTensor.Proofs.Shape.Index

/-! Places of elements in storage. The element at an index stands at the row-major position of
its stored coordinates, which leave out where a broadcast dimension is read again. The strides
of a view lead to just these places, all of which lie in storage and cover it.
-/

namespace LazyTensor

namespace Shape

theorem position_units_front (count : Nat) (shape : Shape) (index : Index)
    : position (List.replicate count 1 ++ shape) (List.replicate count 0 ++ index)
      = position shape index := by
  induction count with
  | zero => rfl
  | succ count ih =>
      simp only [List.replicate_succ, List.cons_append, position, Nat.zero_mul, Nat.zero_add, ih]

/-- Dimensions of size one behind do not move elements, by induction on the shape. -/
theorem position_units_back {shape : Shape} {index : Index} (length : index.length = shape.length)
    (count : Nat)
    : position (shape ++ List.replicate count 1) (index ++ List.replicate count 0)
      = position shape index := by
  induction shape generalizing index with
  | nil =>
      rw [List.length_eq_zero_iff.mp length]
      simpa using position_units_front count [] []
  | cons extent inner ih =>
      cases index with
      | nil => cases length
      | cons coordinate rest =>
          simp only [List.cons_append, position, ih (Nat.succ.inj length), volume_append,
            volume_replicate_one, Nat.mul_one]

end Shape

namespace View

/-- The stored coordinates behind an index: a dimension that is stored once has only its first
element.
-/
def storedIndex (view : View) (index : Index) : Index :=
  index.zipWith (· % ·) view.physicalShape

/-- The place in storage of the element at an index. -/
def place (view : View) (index : Index) : Nat :=
  view.physicalShape.position (view.storedIndex index)

theorem place_cons (extent factor coordinate : Nat) (shape factors rest : List Nat)
    : place ⟨extent :: shape, factor :: factors⟩ (coordinate :: rest)
      = coordinate % (extent / factor) * (physicalShape ⟨shape, factors⟩).volume
        + place ⟨shape, factors⟩ rest :=
  rfl

theorem strides_cons (extent factor : Nat) (shape factors : List Nat)
    : strides ⟨extent :: shape, factor :: factors⟩
      = (if 1 < factor then 0 else Shape.size (physicalShape ⟨shape, factors⟩))
        :: strides ⟨shape, factors⟩ := by
  simp only [strides, physicalShape_cons, Shape.strides_cons, List.zipWith_cons_cons]

/-- Stored coordinates are an index of the stored shape. -/
theorem WellFormed.storedIndex_holds {view : View} (wf : view.WellFormed) {index : Index}
    (length : index.length = view.shape.length)
    : view.physicalShape.Holds (view.storedIndex index) := by
  have sizes := length.trans wf.length_physicalShape.symm
  apply Shape.holds_of_getElem_lt
  · rw [storedIndex, List.length_zipWith, sizes, Nat.min_self]
  · intro axis _ inShape
    simp only [storedIndex, List.getElem_zipWith]
    exact Nat.mod_lt _ (wf.physicalShape_fits.positive _ (List.getElem_mem inShape))

theorem WellFormed.place_lt {view : View} (wf : view.WellFormed) {index : Index}
    (held : view.shape.Holds index)
    : view.place index < view.physicalSize := by
  rw [wf.physicalSize_eq]
  exact (wf.storedIndex_holds held.length_eq).position_lt

/-- The strides of a view lead to the places of its elements, by induction on the dimensions:
a broadcast dimension has stride zero and is stored once, and in any other the coordinate is
the stored one.
-/
theorem WellFormed.along_strides {view : View} (wf : view.WellFormed) {index : Index}
    (held : view.shape.Holds index)
    : Shape.along index view.strides = view.place index := by
  induction wf using WellFormed.byDimension generalizing index with
  | nil =>
      rw [Shape.holds_nil.mp held]
      rfl
  | @cons extent factor shape factors wf ih =>
      obtain ⟨coordinate, rest, rfl, below, inside⟩ := held.exists_cons
      rw [strides_cons, Shape.along, ih inside, place_cons, wf.tail.physicalShape_fits.size_eq]
      congr 1
      rcases wf.stored_extent with ⟨rfl, stored⟩ | ⟨rfl, stored⟩
      · rw [stored, Nat.mod_eq_of_lt below]
        rfl
      · rw [stored, Nat.mod_one, Nat.zero_mul]
        -- A dimension that is not broadcast and stored once has only one coordinate.
        by_cases grown : 1 < factor
        · rw [if_pos grown, Nat.mul_zero]
        · have zero : coordinate = 0 := by omega
          rw [zero, Nat.zero_mul]

/-- Stored coordinates are coordinates of the view, and their own stored coordinates. -/
theorem WellFormed.holds_of_stored {view : View} (wf : view.WellFormed) {index : Index}
    (held : view.physicalShape.Holds index)
    : view.shape.Holds index ∧ view.storedIndex index = index := by
  constructor
  · apply Shape.holds_of_getElem_lt (held.length_eq.trans wf.length_physicalShape)
    intro axis inIndex inShape
    have inStored : axis < view.physicalShape.length := held.length_eq ▸ inIndex
    exact (held.getElem_lt inIndex inStored).trans_le
      (List.Forall₂.get wf.physicalShape_le inStored inShape).2
  · exact held.zipWith_mod

/-- The index of the view that stands at a place of its storage. -/
def indexOf (view : View) (place : Nat) : Index := view.physicalShape.indexAt place

theorem WellFormed.place_indexOf {view : View} (wf : view.WellFormed) {place : Nat}
    (below : place < view.physicalSize)
    : view.shape.Holds (view.indexOf place) ∧ view.place (view.indexOf place) = place := by
  rw [wf.physicalSize_eq] at below
  have stored := wf.holds_of_stored (Shape.indexAt_holds below)
  refine ⟨stored.1, ?_⟩
  rw [View.place, indexOf, stored.2, Shape.position_indexAt below]

/-- In a dense view elements stand at their row-major positions. -/
theorem place_dense {shape : Shape} {index : Index} (held : shape.Holds index)
    : (dense shape).place index = shape.position index := by
  rw [place, storedIndex, physicalShape_dense, held.zipWith_mod]

/-- A stored extent divides the extent that the view shows, dimension by dimension. -/
theorem WellFormed.physicalShape_dvd {view : View} (wf : view.WellFormed)
    : List.Forall₂ (· ∣ ·) view.physicalShape view.shape := by
  induction wf using WellFormed.byDimension with
  | nil => exact .nil
  | @cons extent factor _ _ wf ih =>
      have head : extent / factor ∣ extent := by
        rcases wf.stored_extent with ⟨_, stored⟩ | ⟨_, stored⟩
        · rw [stored]
        · rw [stored]
          exact Nat.one_dvd extent
      exact .cons head ih

/-- A broadcast view shows at an index what the view before shows at the remainders of the
coordinates.
-/
theorem WellFormed.place_expanded {view : View} (wf : view.WellFormed) {shape : Shape}
    (fits : shape.Fits) (grows : view.expandsTo shape = true) (index : Index)
    : (view.expanded shape).place index
      = view.place (index.zipWith (· % ·) view.shape) := by
  have stored
      : index.zipWith (· % ·) view.physicalShape
        = (index.zipWith (· % ·) view.shape).zipWith (· % ·) view.physicalShape := by
    apply List.ext_getElem
    · simp [wf.length_physicalShape]
    · intro axis inLeft inRight
      simp only [List.length_zipWith, lt_min_iff] at inLeft inRight
      simp only [List.getElem_zipWith]
      exact (Nat.mod_mod_of_dvd _
        (List.Forall₂.get wf.physicalShape_dvd inLeft.2 inRight.1.2)).symm
  rw [place, place, storedIndex, storedIndex, wf.physicalShape_expanded fits grows, stored]

/-- Dimensions of size one around a view do not move its elements. -/
theorem WellFormed.place_withUnits {view : View} (wf : view.WellFormed) {front index back : Index}
    (length : index.length = view.shape.length)
    : (view.withUnits front.length back.length).place (front ++ index ++ back)
      = view.place index := by
  have zeros (coordinates : Index)
      : coordinates.zipWith (· % ·) (List.replicate coordinates.length 1)
        = List.replicate coordinates.length 0 := by
    apply List.ext_getElem
    · simp
    · simp [Nat.mod_one]
  have same : index.length = view.physicalShape.length := length.trans wf.length_physicalShape.symm
  have stored
      : (front ++ index ++ back).zipWith (· % ·)
            (List.replicate front.length 1 ++ view.physicalShape ++ List.replicate back.length 1)
        = List.replicate front.length 0 ++ view.storedIndex index
          ++ List.replicate back.length 0 := by
    rw [List.zipWith_append (by simp [same]), List.zipWith_append (by simp), zeros, zeros]
    rfl
  have length' : (view.storedIndex index).length = view.physicalShape.length := by
    rw [storedIndex, List.length_zipWith, same, Nat.min_self]
  rw [place, storedIndex, wf.physicalShape_withUnits, stored, List.append_assoc, List.append_assoc,
    Shape.position_units_front, Shape.position_units_back length']
  rfl

end View

namespace Layout

/-- The place in storage of the element that the current view shows at an index. -/
def place (layout : Layout) (index : Index) : Nat := layout.current.place index

/-- The index of the current view that stands at a place of storage. -/
def indexOf (layout : Layout) (place : Nat) : Index := layout.current.indexOf place

theorem place_dense {shape : Shape} {index : Index} (held : shape.Holds index)
    : (dense shape).place index = shape.position index :=
  View.place_dense held

/-- A reshaped layout shows at an index the stored element of the same row-major position. -/
theorem WellFormed.place_reshape {layout reshaped : Layout} (wf : layout.WellFormed) {shape : Shape}
    (done : layout.reshape shape = .ok reshaped) {index : Index} (held : shape.Holds index)
    : reshaped.place index
      = layout.place (layout.physicalShape.indexAt (shape.position index)) := by
  obtain ⟨fits, same, rfl⟩ := reshape_eq_ok_iff.mp done
  have below : shape.position index < layout.current.physicalSize := by
    change shape.position index < layout.physicalSize
    rw [← same, fits.size_eq]
    exact held.position_lt
  exact (place_dense held).trans (wf.current.place_indexOf below).2.symm

/-- An expanded layout shows at an index what the layout shows at the remainders of the
coordinates.
-/
theorem WellFormed.place_expand {layout expanded : Layout} (wf : layout.WellFormed) {shape : Shape}
    (done : layout.expand shape = .ok expanded) (index : Index)
    : expanded.place index = layout.place (index.zipWith (· % ·) layout.shape) := by
  obtain ⟨fits, grows, rfl⟩ := expand_eq_ok_iff.mp done
  exact wf.current.place_expanded fits grows index

theorem WellFormed.place_insertUnits {layout : Layout} (wf : layout.WellFormed)
    {front index back : Index} (length : index.length = layout.rank)
    : (layout.insertUnits front.length back.length).place (front ++ index ++ back)
      = layout.place index :=
  wf.current.place_withUnits length

end Layout

end LazyTensor
