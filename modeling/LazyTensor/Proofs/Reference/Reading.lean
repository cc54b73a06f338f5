import LazyTensor.Graph.Contents
import LazyTensor.Proofs.Reference.Workspace

/-! Reading arrays back. A shaped read repeats rows and does not use strides, yet it gives the
stored element of each index in row-major order. So a buffer whose node is computed reads as the
array that it shows.
-/

namespace LazyTensor

/-- Rows that are read and repeated are the stored elements of all indices in row-major order, by
induction on the dimensions: a dimension that is stored once is repeated, and any other has a row
for each coordinate.
-/
theorem View.WellFormed.repeatUnits_eq {view : View} (wf : view.WellFormed) (data : Array Pattern)
    (start : Nat)
    : repeatUnits data view.physicalShape view.shape start
      = (Shape.indices view.shape).flatMap fun index =>
          data[start + view.place index]?.toList := by
  induction wf using WellFormed.byDimension generalizing start with
  | nil => simp [repeatUnits, Shape.indices, place, Shape.position]
  | @cons extent factor shape factors wf ih =>
      let row (coordinate : Nat) : List Pattern :=
        repeatUnits data (physicalShape ⟨shape, factors⟩) shape
          (start + coordinate * Shape.volume (physicalShape ⟨shape, factors⟩))
      have listed
          : ((Shape.indices (extent :: shape)).flatMap fun index =>
              data[start + place ⟨extent :: shape, factor :: factors⟩ index]?.toList)
            = (List.range extent).flatMap fun coordinate => row (coordinate % (extent / factor)) := by
        simp only [Shape.indices, List.flatMap_assoc, List.flatMap_map, place_cons, row, ih,
          Nat.add_assoc]
      rw [listed, physicalShape_cons, repeatUnits]
      by_cases full : extent / factor = extent
      · rw [if_pos full, full]
        refine List.flatMap_congr ?_
        intro coordinate member
        rw [Nat.mod_eq_of_lt (List.mem_range.mp member)]
      · obtain ⟨_, single⟩ := wf.stored_extent.resolve_left fun both => full both.2
        rw [if_neg full, single]
        simp only [Nat.mod_one]
        rw [List.range_one, List.flatMap_singleton, List.flatMap_def, List.map_const',
          List.length_range]

/-- Cells that show an array read as its elements in row-major order. -/
theorem Layout.Shows.repeatUnits_eq {layout : Layout} (wf : layout.WellFormed)
    {cells : Array Pattern} {array : LogicalArray} (shows : layout.Shows cells array)
    : repeatUnits cells layout.physicalShape layout.shape 0
      = (Shape.indices layout.shape).map array.value := by
  rw [physicalShape, Layout.shape, wf.current.repeatUnits_eq, List.map_eq_flatMap]
  refine List.flatMap_congr ?_
  intro index member
  have stands := shows.value index (Shape.mem_indices.mp member)
  rw [Nat.zero_add]
  exact congrArg Option.toList stands

namespace Graph

variable {graph : Graph} {buffer : Buffer} {dtype : DType}

/-- Without memory there is nothing to read. -/
theorem reads_absent (absent : graph.storage? buffer.node = none) (dtype : DType)
    : graph.contents buffer dtype = .error (.notRealized buffer.node)
      ∧ graph.elements buffer dtype = .error (.notRealized buffer.node) := by
  have flat : graph.contents buffer dtype = .error (.notRealized buffer.node) := by
    rw [contents, absent]
  refine ⟨flat, ?_⟩
  rw [elements, flat]
  rfl

/-- Memory is read under its own element type. -/
theorem contents_own {storage : Storage} (had : graph.storage? buffer.node = some storage)
    : graph.contents buffer storage.dtype = .ok storage.cells := by
  simp [contents, had, Storage.read]

theorem cells_of_contents {storage : Storage} (had : graph.storage? buffer.node = some storage)
    {data : Array Pattern} (read : graph.contents buffer dtype = .ok data)
    : storage.cells = data := by
  rw [contents, had] at read
  by_cases same : dtype = storage.dtype
  · simpa [Storage.read, same] using read
  · simp [Storage.read, same] at read

end Graph

/-- A shape of positive dimensions and few elements can be addressed. -/
theorem Shape.isAddressable_of_lt {shape : Shape} (positive : ∀ extent ∈ shape, 0 < extent)
    (small : shape.volume < addressRange)
    : shape.isAddressable = true := by
  have all : shape.filter (· != 0) = shape := by
    refine List.filter_eq_self.mpr ?_
    intro extent member
    exact bne_iff_ne.mpr (positive extent member).ne'
  rw [isAddressable, all]
  exact decide_eq_true small

/-- Stored elements of the right number can be arranged if there are few. -/
theorem Graph.arrangementError?_eq_none {shape : Shape} (positive : ∀ extent ∈ shape, 0 < extent)
    (small : shape.volume < addressRange)
    : arrangementError? shape shape.volume = none := by
  simp [arrangementError?, Shape.isAddressable_of_lt positive small]

/-- A buffer that shows few enough elements reads as its stored elements, repeated along the dimensions
of size one. Only room for all of them together may be lacking.
-/
theorem Graph.elements_of_few {graph : Graph} {buffer : Buffer} (wf : buffer.layout.WellFormed)
    {storage : Storage} (had : graph.storage? buffer.node = some storage)
    (size : storage.size = buffer.layout.physicalSize) (few : buffer.shape.volume < addressRange)
    : graph.elements buffer storage.dtype
      = if addressRange ≤ buffer.shape.volume * storage.dtype.bytes then
          .error (.arrangement buffer.node .capacity)
        else
          .ok (repeatUnits storage.cells buffer.layout.physicalShape buffer.shape 0) := by
  have taken : graph.contents buffer storage.dtype = .ok storage.cells := contents_own had
  have fits : buffer.shape.Fits := wf.current.fits
  have stored : buffer.layout.physicalShape.volume ≤ buffer.shape.volume :=
    View.volume_le_of_forall₂ wf.current.physicalShape_le
  have count : storage.cells.size = buffer.layout.physicalShape.volume :=
    size.trans wf.current.physicalSize_eq
  have arranged
      : arrangementError? buffer.layout.physicalShape buffer.layout.physicalShape.volume = none :=
    arrangementError?_eq_none wf.current.physicalShape_fits.positive (stored.trans_lt few)
  have addressable : buffer.shape.isAddressable = true :=
    Shape.isAddressable_of_lt fits.positive few
  simp only [elements, taken, Except.bind, bind, count, arranged, addressable, Bool.not_true,
    Bool.false_eq_true, if_false, if_neg fits.volume_pos.ne']

/-- A buffer that shows few enough bytes reads as the array that the storage of its node shows, in
row-major order.
-/
theorem Graph.elements_eq {graph : Graph} {buffer : Buffer} (wf : buffer.layout.WellFormed)
    {storage : Storage} (had : graph.storage? buffer.node = some storage)
    (size : storage.size = buffer.layout.physicalSize) {array : LogicalArray}
    (shows : buffer.layout.Shows storage.cells array)
    (small : buffer.shape.volume * storage.dtype.bytes < addressRange)
    : graph.elements buffer storage.dtype
      = .ok ((Shape.indices buffer.shape).map array.value) := by
  have few : buffer.shape.volume < addressRange := by
    have positive : 0 < storage.dtype.bytes := by cases storage.dtype <;> decide
    exact (Nat.le_mul_of_pos_right _ positive).trans_lt small
  rw [elements_of_few wf had size few, if_neg small.not_ge]
  exact congrArg Except.ok (shows.repeatUnits_eq wf)

/-- Rows that are read and repeated hold stored elements only, by induction on the dimensions. -/
theorem mem_of_mem_repeatUnits {data : Array Pattern} {stored shown : Shape} {start : Nat}
    {element : Pattern} (member : element ∈ repeatUnits data stored shown start)
    : element ∈ data := by
  have single {place : Nat} (member : element ∈ data[place]?.toList) : element ∈ data :=
    Array.mem_of_getElem? (Option.mem_toList.mp member)
  induction stored generalizing shown start with
  | nil => exact single member
  | cons extent stored ih =>
      cases shown with
      | nil => exact single member
      | cons count shown =>
          have rows
              (inside
                : element ∈ (List.range extent).flatMap fun row =>
                    repeatUnits data stored shown (start + row * Shape.volume stored))
              : element ∈ data := by
            obtain ⟨row, _, within⟩ := List.mem_flatMap.mp inside
            exact ih within
          rw [repeatUnits] at member
          split at member
          · exact rows member
          · obtain ⟨line, repeated, inside⟩ := List.mem_flatten.mp member
            exact rows ((List.mem_replicate.mp repeated).2 ▸ inside)

/-- What a shaped read gives are stored elements. -/
theorem Graph.elements_stored {graph : Graph} {buffer : Buffer} {dtype : DType}
    {listed : List Pattern} (read : graph.elements buffer dtype = .ok listed)
    : ∃ data, graph.contents buffer dtype = .ok data ∧ ∀ element ∈ listed, element ∈ data := by
  rw [elements] at read
  cases stored : graph.contents buffer dtype with
  | error cause =>
      rw [stored] at read
      cases read
  | ok data =>
      refine ⟨data, rfl, ?_⟩
      intro element member
      simp only [stored, bind, Except.bind] at read
      split at read
      · cases read
      · split at read
        · cases read
        · split at read
          · cases read
          · obtain rfl := Except.ok.inj read
            split at member
            · cases member
            · exact mem_of_mem_repeatUnits member

end LazyTensor
