import LazyTensor.Proofs.Layout.History
import LazyTensor.Proofs.Layout.Place
import Mathlib.Algebra.GroupWithZero.Nat
import Mathlib.Data.List.Lex
import Mathlib.Data.Set.Function

/-! Addresses of elements. The address of an index is the sum of its coordinates times the strides
of the view. The addresses of all indices are the places of the storage, two indices share one just
when they differ in broadcast dimensions only, and without such dimensions the addresses follow the
indices in row-major order. This holds whatever calls have led to the view.
-/

namespace LazyTensor

namespace Shape

theorem along_eq_sum (index strides : List Nat)
    : along index strides = (index.zipWith (· * ·) strides).sum := by
  induction index generalizing strides with
  | nil => cases strides <;> rfl
  | cons coordinate rest ih =>
      cases strides with
      | nil => rfl
      | cons stride inner => rw [along, ih, List.zipWith_cons_cons, List.sum_cons]

/-- Row-major positions are ordered like the indices, by induction on the dimensions: what the inner
coordinates add is less than one step of the outermost one.
-/
theorem Holds.position_lt_iff {shape : Shape} {left right : Index} (heldLeft : shape.Holds left)
    (heldRight : shape.Holds right)
    : position shape left < position shape right ↔ left < right := by
  induction shape generalizing left right with
  | nil =>
      rw [holds_nil.mp heldLeft, holds_nil.mp heldRight]
      simp
  | cons extent inner ih =>
      obtain ⟨first, rest, rfl, _, inside⟩ := heldLeft.exists_cons
      obtain ⟨second, others, rfl, _, within⟩ := heldRight.exists_cons
      have leftBelow := inside.position_lt
      have rightBelow := within.position_lt
      rw [position, position, List.cons_lt_cons_iff, ← ih inside within]
      rcases Nat.lt_trichotomy first second with less | rfl | greater
      · have step := Nat.mul_le_mul_right (volume inner) (Nat.succ_le_of_lt less)
        rw [Nat.succ_mul] at step
        exact ⟨fun _ => Or.inl less, fun _ => by omega⟩
      · simp
      · have step := Nat.mul_le_mul_right (volume inner) (Nat.succ_le_of_lt greater)
        rw [Nat.succ_mul] at step
        constructor
        · omega
        · intro given
          rcases given with less | ⟨rfl, _⟩ <;> omega

end Shape

namespace View

/-- Two indices have the same stored coordinates if they agree wherever a dimension is not
broadcast, by induction on the dimensions: a broadcast one is stored once, so all its coordinates
are read from there.
-/
theorem WellFormed.storedIndex_eq_iff {view : View} (wf : view.WellFormed) {left right : Index}
    (heldLeft : view.shape.Holds left) (heldRight : view.shape.Holds right)
    : view.storedIndex left = view.storedIndex right
      ↔ ∀ axis : Nat, view.factors[axis]? = some 1 → left[axis]? = right[axis]? := by
  induction wf using WellFormed.byDimension generalizing left right with
  | nil =>
      rw [Shape.holds_nil.mp heldLeft, Shape.holds_nil.mp heldRight]
      simp
  | @cons extent factor shape factors wf ih =>
      obtain ⟨first, rest, rfl, firstBelow, inside⟩ := heldLeft.exists_cons
      obtain ⟨second, others, rfl, secondBelow, within⟩ := heldRight.exists_cons
      have head
          : first % (extent / factor) = second % (extent / factor)
            ↔ factor = 1 → first = second := by
        rcases wf.stored_extent with ⟨rfl, stored⟩ | ⟨rfl, stored⟩
        · rw [stored, Nat.mod_eq_of_lt firstBelow, Nat.mod_eq_of_lt secondBelow]
          simp
        · rw [stored, Nat.mod_one, Nat.mod_one]
          -- A dimension of one element that is not broadcast has no second coordinate.
          exact ⟨fun _ one => by omega, fun _ => rfl⟩
      rw [← Nat.and_forall_add_one]
      simp only [List.getElem?_cons_zero, List.getElem?_cons_succ, Option.some.injEq]
      rw [← ih inside within, ← head]
      exact List.cons_eq_cons

theorem WellFormed.place_eq_iff {view : View} (wf : view.WellFormed) {left right : Index}
    (heldLeft : view.shape.Holds left) (heldRight : view.shape.Holds right)
    : view.place left = view.place right
      ↔ ∀ axis : Nat, view.factors[axis]? = some 1 → left[axis]? = right[axis]? := by
  rw [← wf.storedIndex_eq_iff heldLeft heldRight]
  constructor
  · exact (wf.storedIndex_holds heldLeft.length_eq).eq_of_position_eq
      (wf.storedIndex_holds heldRight.length_eq)
  · exact congrArg _

/-- A view without broadcast dimensions is dense. -/
theorem WellFormed.eq_dense {view : View} (wf : view.WellFormed)
    (contiguous : view.isContiguous = true)
    : view = dense view.shape := by
  have ones : view.factors = List.replicate view.shape.length 1 := by
    rw [wf.length_eq]
    refine List.eq_replicate_of_mem ?_
    intro factor member
    exact beq_iff_eq.mp (List.all_eq_true.mp contiguous factor member)
  rw [dense, ← ones]

end View

namespace Layout

/-- The sum of the products of coordinates and strides. -/
def address (layout : Layout) (index : Index) : Nat :=
  (index.zipWith (· * ·) layout.strides).sum

variable {layout : Layout}

theorem WellFormed.address_eq (wf : layout.WellFormed) {index : Index}
    (held : layout.shape.Holds index)
    : layout.address index = layout.place index :=
  (Shape.along_eq_sum _ _).symm.trans (wf.current.along_strides held)

/-- Every index has its place in storage, and every place has an index. -/
theorem WellFormed.image_address (wf : layout.WellFormed)
    : layout.address '' {index | layout.shape.Holds index} = Set.Iio layout.physicalSize := by
  ext place
  simp only [Set.mem_image, Set.mem_ofPred_eq, Set.mem_Iio]
  constructor
  · intro given
    obtain ⟨index, held, rfl⟩ := given
    rw [wf.address_eq held]
    exact wf.current.place_lt held
  · intro below
    obtain ⟨held, same⟩ := wf.current.place_indexOf below
    exact ⟨layout.indexOf place, held, (wf.address_eq held).trans same⟩

theorem WellFormed.address_eq_iff (wf : layout.WellFormed) {left right : Index}
    (heldLeft : layout.shape.Holds left) (heldRight : layout.shape.Holds right)
    : layout.address left = layout.address right
      ↔ ∀ axis : Nat, layout.factors[axis]? = some 1 → left[axis]? = right[axis]? := by
  rw [wf.address_eq heldLeft, wf.address_eq heldRight]
  exact wf.current.place_eq_iff heldLeft heldRight

/-- Without broadcast dimensions an element stands at its row-major position. -/
theorem WellFormed.address_eq_position (wf : layout.WellFormed)
    (contiguous : layout.isContiguous = true) {index : Index} (held : layout.shape.Holds index)
    : layout.address index = layout.shape.position index := by
  rw [wf.address_eq held, place, wf.current.eq_dense contiguous]
  exact View.place_dense held

theorem WellFormed.address_strictMonoOn (wf : layout.WellFormed)
    (contiguous : layout.isContiguous = true)
    : StrictMonoOn layout.address {index | layout.shape.Holds index} := by
  intro left heldLeft right heldRight less
  rw [wf.address_eq_position contiguous heldLeft, wf.address_eq_position contiguous heldRight]
  exact (Shape.Holds.position_lt_iff heldLeft heldRight).mpr less

theorem WellFormed.physicalSize_eq_logicalSize (wf : layout.WellFormed)
    (contiguous : layout.isContiguous = true)
    : layout.physicalSize = layout.logicalSize := by
  rw [physicalSize, View.physicalSize, wf.current.eq_dense contiguous, View.physicalShape_dense]
  rfl

/-- After any calls on the layout of a usable shape, accepted or refused, the addresses of the
indices are the places of the storage, all of them and no others. Two indices have one address if
and only if they agree in every dimension whose factor is one. If no dimension is broadcast, the
address is the row-major position, which leads from the indices to as many places as there are
elements, one to one and in the lexicographic order of the indices.
-/
theorem afterAll_addresses {shape : Shape} (valid : shape.isValid = true) (calls : List Call)
    : let layout := (dense shape).afterAll calls
      layout.address '' {index | layout.shape.Holds index} = Set.Iio layout.physicalSize
      ∧ (∀ left right,
          layout.shape.Holds left → layout.shape.Holds right →
            (layout.address left = layout.address right
              ↔ ∀ axis : Nat, layout.factors[axis]? = some 1 → left[axis]? = right[axis]?))
      ∧ (layout.isContiguous = true
          → (∀ index,
              layout.shape.Holds index → layout.address index = layout.shape.position index)
            ∧ Set.BijOn layout.address {index | layout.shape.Holds index}
                (Set.Iio layout.logicalSize)
            ∧ StrictMonoOn layout.address {index | layout.shape.Holds index}) := by
  intro layout
  have wf : layout.WellFormed :=
    ((dense_wellFormed (Shape.isValid_iff.mp valid)).afterAll calls).1
  refine ⟨wf.image_address, fun _ _ => wf.address_eq_iff, ?_⟩
  intro contiguous
  have ordered := wf.address_strictMonoOn contiguous
  refine ⟨fun _ => wf.address_eq_position contiguous, ?_, ordered⟩
  have onto := ordered.injOn.bijOn_image
  rwa [wf.image_address, wf.physicalSize_eq_logicalSize contiguous] at onto

/-- A column of three elements that is broadcast along its rows is read at three places, at the same
one along a row. Read as one row again, it has its addresses in order.
-/
theorem afterAll_addresses_sample
    : Shape.isValid [3, 1] = true
      ∧ (let column := (dense [3, 1]).afterAll [.expand [3, 4], .insertUnits 1 0]
        column.address '' {index | Shape.Holds [1, 3, 4] index} = Set.Iio 3
        ∧ column.address [0, 2, 0] = column.address [0, 2, 3]
        ∧ column.address [0, 1, 3] ≠ column.address [0, 2, 3])
      ∧ (let row := (dense [3, 1]).afterAll [.expand [3, 4], .reshape [1, 3]]
        row.isContiguous = true ∧ row.address [0, 1] < row.address [0, 2]) := by
  have valid : Shape.isValid [3, 1] = true := by decide
  obtain ⟨image, shared, _⟩ := afterAll_addresses valid [.expand [3, 4], .insertUnits 1 0]
  obtain ⟨_, _, ordered⟩ := afterAll_addresses valid [.expand [3, 4], .reshape [1, 3]]
  have held (last : Nat) (below : last < 4) : Shape.Holds [1, 3, 4] [0, 2, last] := by
    simpa using below
  have above : Shape.Holds [1, 3, 4] [0, 1, 3] := by simp
  have contiguous
      : ((dense [3, 1]).afterAll [.expand [3, 4], .reshape [1, 3]]).isContiguous = true := by
    decide
  have factors
      : ((dense [3, 1]).afterAll [.expand [3, 4], .insertUnits 1 0]).factors = [1, 1, 4] := by
    decide
  refine ⟨valid, ⟨image, ?_, ?_⟩, contiguous, ?_⟩
  · refine (shared [0, 2, 0] [0, 2, 3] (held 0 (by decide)) (held 3 (by decide))).mpr ?_
    intro axis stored
    rw [factors] at stored
    rcases axis with _ | _ | _ | axis
    · rfl
    · rfl
    · simp at stored
    · rfl
  · intro same
    have agree := (shared [0, 1, 3] [0, 2, 3] above (held 3 (by decide))).mp same 1 rfl
    simp at agree
  · have first : Shape.Holds [1, 3] [0, 1] := by simp
    have second : Shape.Holds [1, 3] [0, 2] := by simp
    exact (ordered contiguous).2.2 first second (by decide)

end Layout

end LazyTensor
