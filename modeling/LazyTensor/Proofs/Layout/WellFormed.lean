import LazyTensor.Layout
import LazyTensor.Proofs.Outcome
import LazyTensor.Proofs.Shape.Size
import Mathlib.Data.List.Forall2

/-! Views and layouts that keep to the rules. A factor is one or the whole dimension, so a
dimension is either stored in full or read again from a stored extent of one. Reshaping,
expanding and inserting dimensions of size one keep a layout to the rules and keep the number
of elements that stand behind it.
-/

namespace LazyTensor

namespace View

/-- A usable shape whose factors are each one or the whole dimension. -/
structure WellFormed (view : View) : Prop where
  fits : view.shape.Fits
  factors
    : List.Forall₂ (fun extent factor => factor = 1 ∨ factor = extent) view.shape view.factors

theorem WellFormed.scalar : WellFormed ⟨[], []⟩ := ⟨.scalar, .nil⟩

theorem WellFormed.head {extent factor : Nat} {shape factors : List Nat}
    (wf : WellFormed ⟨extent :: shape, factor :: factors⟩)
    : 0 < extent ∧ (factor = 1 ∨ factor = extent) :=
  ⟨wf.fits.head_pos, (List.forall₂_cons.mp wf.factors).1⟩

theorem WellFormed.tail {extent factor : Nat} {shape factors : List Nat}
    (wf : WellFormed ⟨extent :: shape, factor :: factors⟩)
    : WellFormed ⟨shape, factors⟩ :=
  ⟨wf.fits.tail, (List.forall₂_cons.mp wf.factors).2⟩

theorem WellFormed.length_eq {view : View} (wf : view.WellFormed)
    : view.shape.length = view.factors.length :=
  List.Forall₂.length_eq wf.factors

/-- What holds of the empty view and of one dimension around any view holds of all views that
follow the rules, by induction on the shape.
-/
theorem WellFormed.byDimension {motive : (view : View) → view.WellFormed → Prop}
    (nil : motive ⟨[], []⟩ .scalar)
    (cons
      : ∀ {extent factor : Nat} {shape factors : List Nat}
          (wf : WellFormed ⟨extent :: shape, factor :: factors⟩),
          motive ⟨shape, factors⟩ wf.tail
          → motive ⟨extent :: shape, factor :: factors⟩ wf)
    {view : View} (wf : view.WellFormed)
    : motive view wf := by
  obtain ⟨shape, factors⟩ := view
  induction shape generalizing factors with
  | nil =>
      cases factors with
      | nil => exact nil
      | cons factor rest => exact absurd wf.length_eq (by simp)
  | cons extent shape ih =>
      cases factors with
      | nil => exact absurd wf.length_eq (by simp)
      | cons factor factors => exact cons wf (ih factors wf.tail)

@[simp] theorem physicalShape_cons (extent factor : Nat) (shape factors : List Nat)
    : physicalShape ⟨extent :: shape, factor :: factors⟩
      = extent / factor :: physicalShape ⟨shape, factors⟩ :=
  rfl

@[simp] theorem physicalShape_nil : physicalShape ⟨[], []⟩ = [] := rfl

/-- A dimension is stored in full or with an extent of one. -/
theorem WellFormed.stored_extent {extent factor : Nat} {shape factors : List Nat}
    (wf : WellFormed ⟨extent :: shape, factor :: factors⟩)
    : factor = 1 ∧ extent / factor = extent ∨ factor = extent ∧ extent / factor = 1 := by
  obtain ⟨positive, rfl | rfl⟩ := wf.head
  · exact Or.inl ⟨rfl, Nat.div_one extent⟩
  · exact Or.inr ⟨rfl, Nat.div_self positive⟩

theorem WellFormed.length_physicalShape {view : View} (wf : view.WellFormed)
    : view.physicalShape.length = view.shape.length := by
  rw [physicalShape, List.length_zipWith, wf.length_eq, Nat.min_self]

/-- No dimension is stored larger than it shows, and none is stored empty. -/
theorem WellFormed.physicalShape_le {view : View} (wf : view.WellFormed)
    : List.Forall₂ (fun stored extent => 0 < stored ∧ stored ≤ extent) view.physicalShape
        view.shape := by
  induction wf using WellFormed.byDimension with
  | nil => exact .nil
  | @cons extent factor _ _ wf ih =>
      have positive := wf.head.1
      have head : 0 < extent / factor ∧ extent / factor ≤ extent := by
        rcases wf.stored_extent with ⟨_, stored⟩ | ⟨_, stored⟩
        · exact ⟨stored.symm ▸ positive, stored.le⟩
        · exact ⟨stored.symm ▸ Nat.one_pos, stored.symm ▸ positive⟩
      exact .cons head ih

theorem volume_le_of_forall₂ {stored shape : Shape}
    (below : List.Forall₂ (fun stored extent => 0 < stored ∧ stored ≤ extent) stored shape)
    : stored.volume ≤ shape.volume := by
  induction below with
  | nil => exact Nat.le_refl _
  | cons head _ ih => exact Nat.mul_le_mul head.2 ih

/-- The stored shape is usable. -/
theorem WellFormed.physicalShape_fits {view : View} (wf : view.WellFormed)
    : view.physicalShape.Fits where
  positive := by
    intro extent member
    obtain ⟨place, below, rfl⟩ := List.mem_iff_getElem.mp member
    have inShape : place < view.shape.length := wf.length_physicalShape ▸ below
    exact (List.Forall₂.get wf.physicalShape_le below inShape).1
  bounded := (volume_le_of_forall₂ wf.physicalShape_le).trans_lt wf.fits.bounded

theorem WellFormed.physicalSize_eq {view : View} (wf : view.WellFormed)
    : view.physicalSize = view.physicalShape.volume :=
  wf.physicalShape_fits.size_eq

-----------------------------------------------------------------------------------------
-- Dense views
-----------------------------------------------------------------------------------------

theorem dense_wellFormed {shape : Shape} (fits : shape.Fits) : (dense shape).WellFormed where
  fits := fits
  factors := by
    refine List.forall₂_iff_get.mpr ⟨by simp [dense], ?_⟩
    intro axis _ _
    exact Or.inl (by simp [dense])

@[simp] theorem physicalShape_dense (shape : Shape) : (dense shape).physicalShape = shape := by
  rw [physicalShape, dense]
  induction shape with
  | nil => rfl
  | cons extent inner ih =>
      simp only [List.length_cons, List.replicate_succ, List.zipWith_cons_cons, Nat.div_one, ih]

@[simp] theorem shape_dense (shape : Shape) : (dense shape).shape = shape := rfl

-----------------------------------------------------------------------------------------
-- Dimensions of size one
-----------------------------------------------------------------------------------------

/-- Dimensions of size one around a view follow the rules. -/
theorem WellFormed.withUnits {view : View} (wf : view.WellFormed) (leading trailing : Nat)
    : (view.withUnits leading trailing).WellFormed where
  fits := by
    constructor
    · intro extent member
      simp only [View.withUnits, List.mem_append, List.mem_replicate] at member
      rcases member with (⟨_, rfl⟩ | member) | ⟨_, rfl⟩
      · exact Nat.one_pos
      · exact wf.fits.positive extent member
      · exact Nat.one_pos
    · simpa [View.withUnits, Shape.volume_append, Shape.volume_replicate_one]
        using wf.fits.bounded
  factors := by
    have units (count : Nat)
        : List.Forall₂ (fun extent factor => factor = 1 ∨ factor = extent)
            (List.replicate count 1) (List.replicate count 1) :=
      List.forall₂_same.mpr fun _ _ => Or.inr rfl
    exact List.rel_append (List.rel_append (units leading) wf.factors) (units trailing)

/-- Dimensions of size one are stored as such. -/
theorem WellFormed.physicalShape_withUnits {view : View} (wf : view.WellFormed)
    (leading trailing : Nat)
    : (view.withUnits leading trailing).physicalShape
      = List.replicate leading 1 ++ view.physicalShape ++ List.replicate trailing 1 := by
  have same : (List.replicate leading 1 ++ view.shape).length
      = (List.replicate leading 1 ++ view.factors).length := by
    simp [wf.length_eq]
  simp only [physicalShape, View.withUnits]
  rw [List.zipWith_append same, List.zipWith_append (by simp)]
  simp

theorem WellFormed.physicalSize_withUnits {view : View} (wf : view.WellFormed)
    (leading trailing : Nat)
    : (view.withUnits leading trailing).physicalSize = view.physicalSize := by
  rw [(wf.withUnits leading trailing).physicalSize_eq, wf.physicalSize_eq,
    wf.physicalShape_withUnits]
  simp [Shape.volume_append, Shape.volume_replicate_one]

-----------------------------------------------------------------------------------------
-- Broadcast dimensions
-----------------------------------------------------------------------------------------

/-- A view expands to a shape of the same rank whose dimensions agree or grow from one. -/
theorem expandsTo_iff {view : View} {shape : Shape}
    : view.expandsTo shape = true
      ↔ List.Forall₂ (fun current new => current = new ∨ current = 1) view.shape shape := by
  rw [expandsTo, Bool.and_eq_true, beq_iff_eq, List.all_eq_true, List.forall₂_iff_zip]
  simp only [Bool.or_eq_true, beq_iff_eq, Prod.forall]
  exact ⟨fun h => ⟨h.1.symm, @h.2⟩, fun h => ⟨h.1.symm, @h.2⟩⟩

theorem expanded_cons (extent factor new : Nat) (shape factors target : List Nat)
    : expanded ⟨extent :: shape, factor :: factors⟩ (new :: target)
      = ⟨new :: target, new / extent * factor :: (expanded ⟨shape, factors⟩ target).factors⟩ :=
  rfl

/-- A dimension that grows has factor one before and is all factor afterwards. -/
theorem WellFormed.expanded_extent {extent factor new : Nat} {shape factors : List Nat}
    (wf : WellFormed ⟨extent :: shape, factor :: factors⟩) (positive : 0 < new)
    (grows : extent = new ∨ extent = 1)
    : (new / extent * factor = 1 ∨ new / extent * factor = new)
      ∧ new / (new / extent * factor) = extent / factor := by
  have current := wf.head.1
  rcases grows with rfl | rfl
  · rw [Nat.div_self positive, Nat.one_mul]
    exact ⟨wf.head.2, rfl⟩
  · have one : factor = 1 := by rcases wf.head.2 with same | same <;> exact same
    rw [one, Nat.div_one, Nat.mul_one, Nat.div_self positive]
    exact ⟨Or.inr rfl, rfl⟩

/-- Broadcasting follows the rules and leaves the stored shape as it is, by induction on the
dimensions.
-/
theorem WellFormed.expanded_factors {view : View} (wf : view.WellFormed) {shape : Shape}
    (positive : ∀ extent ∈ shape, 0 < extent)
    (grows : List.Forall₂ (fun current new => current = new ∨ current = 1) view.shape shape)
    : List.Forall₂ (fun extent factor => factor = 1 ∨ factor = extent) shape
          (view.expanded shape).factors
      ∧ (view.expanded shape).physicalShape = view.physicalShape := by
  induction wf using WellFormed.byDimension generalizing shape with
  | nil =>
      cases grows
      exact ⟨.nil, rfl⟩
  | cons wf ih =>
      cases grows with
      | @cons _ new _ target head rest =>
          have step := wf.expanded_extent (positive new (by simp)) head
          have inner := ih (fun extent member =>
            positive extent (List.mem_cons_of_mem _ member)) rest
          rw [expanded_cons]
          refine ⟨.cons step.1 inner.1, ?_⟩
          rw [physicalShape_cons, physicalShape_cons, step.2]
          exact congrArg _ inner.2

theorem WellFormed.expanded {view : View} (wf : view.WellFormed) {shape : Shape}
    (fits : shape.Fits) (grows : view.expandsTo shape = true)
    : (view.expanded shape).WellFormed :=
  ⟨fits, (wf.expanded_factors fits.positive (expandsTo_iff.mp grows)).1⟩

theorem WellFormed.physicalShape_expanded {view : View} (wf : view.WellFormed) {shape : Shape}
    (fits : shape.Fits) (grows : view.expandsTo shape = true)
    : (view.expanded shape).physicalShape = view.physicalShape :=
  (wf.expanded_factors fits.positive (expandsTo_iff.mp grows)).2

end View

-----------------------------------------------------------------------------------------
-- Layouts
-----------------------------------------------------------------------------------------

namespace Layout

/-- The current view follows the rules, and so did all views before it, with the same number of
elements behind them.
-/
structure WellFormed (layout : Layout) : Prop where
  current : layout.current.WellFormed
  past
    : ∀ view ∈ layout.past, view.WellFormed ∧ view.physicalSize = layout.physicalSize

theorem dense_wellFormed {shape : Shape} (fits : shape.Fits) : (dense shape).WellFormed :=
  ⟨View.dense_wellFormed fits, by simp [dense]⟩

/-- One more view over as many stored elements follows the rules. -/
theorem WellFormed.push {layout : Layout} (wf : layout.WellFormed) {view : View}
    (next : view.WellFormed) (same : view.physicalSize = layout.physicalSize)
    : (layout.push view).WellFormed where
  current := next
  past := by
    intro earlier member
    rcases List.mem_cons.mp member with rfl | member
    · exact ⟨wf.current, same.symm⟩
    · exact ⟨(wf.past earlier member).1, (wf.past earlier member).2.trans same.symm⟩

theorem WellFormed.insertUnits {layout : Layout} (wf : layout.WellFormed)
    (leading trailing : Nat)
    : (layout.insertUnits leading trailing).WellFormed :=
  wf.push (wf.current.withUnits leading trailing)
    (wf.current.physicalSize_withUnits leading trailing)

theorem WellFormed.physicalSize_insertUnits {layout : Layout} (wf : layout.WellFormed)
    (leading trailing : Nat)
    : (layout.insertUnits leading trailing).physicalSize = layout.physicalSize :=
  wf.current.physicalSize_withUnits leading trailing

namespace Change

@[simp] theorem ends_require {condition : Bool} {error : Error} {layout : Layout}
    {done : Unit → Layout → Prop} {failed : Error → Layout → Prop}
    : Ends (require condition error) layout done failed
      ↔ if condition then done () layout else failed error layout := by
  rw [require]
  exact ends_ite

/-- Reshaping in place checks the shape and then the number of elements, and adds a view last. -/
theorem reshape_ends (shape : Shape) (layout : Layout)
    : Ends (reshape shape) layout
        (fun _ final =>
          shape.isValid = true
          ∧ shape.size = layout.physicalSize
          ∧ final = layout.push (.dense shape))
        (fun cause final =>
          final = layout
          ∧ (shape.isValid = false ∧ cause = .invalidShape shape
            ∨ shape.isValid = true
              ∧ shape.size ≠ layout.physicalSize
              ∧ cause = .cannotReshape layout.physicalShape shape)) := by
  simp only [reshape, ends_bind, ends_require, ends_get, ends_set, beq_iff_eq]
  split
  · next valid =>
      split
      · next same => exact ⟨valid, same, trivial⟩
      · next other => exact ⟨trivial, Or.inr ⟨valid, other, trivial⟩⟩
  · next invalid => exact ⟨trivial, Or.inl ⟨Bool.eq_false_iff.mpr invalid, trivial⟩⟩

/-- Expanding in place checks the shape and then its dimensions, and adds a view last. -/
theorem expand_ends (shape : Shape) (layout : Layout)
    : Ends (expand shape) layout
        (fun _ final =>
          shape.isValid = true
          ∧ layout.current.expandsTo shape = true
          ∧ final = layout.push (layout.current.expanded shape))
        (fun cause final =>
          final = layout
          ∧ (shape.isValid = false ∧ cause = .invalidShape shape
            ∨ shape.isValid = true
              ∧ layout.current.expandsTo shape = false
              ∧ cause = .cannotExpand layout.shape shape)) := by
  simp only [expand, ends_bind, ends_require, ends_get, ends_set]
  split
  · next valid =>
      split
      · next grows => exact ⟨valid, grows, trivial⟩
      · next other => exact ⟨trivial, Or.inr ⟨valid, Bool.eq_false_iff.mpr other, trivial⟩⟩
  · next invalid => exact ⟨trivial, Or.inl ⟨Bool.eq_false_iff.mpr invalid, trivial⟩⟩

end Change

/-- A change is answered with the layout that it leaves or with the cause for which it fails. -/
theorem changed_eq (layout : Layout) (change : Change Unit)
    : layout.changed change
      = match outcome change layout with
        | (.ok _, next) => .ok next
        | (.error cause, _) => .error cause := by
  rw [changed, outcome]
  rcases change.run.run layout with ⟨cause | _, next⟩ <;> rfl

/-- A reshape that is accepted shows the shape over as many stored elements. -/
theorem reshape_eq_ok_iff {layout reshaped : Layout} {shape : Shape}
    : layout.reshape shape = .ok reshaped
      ↔ shape.Fits ∧ shape.size = layout.physicalSize ∧ reshaped = layout.push (.dense shape) := by
  have ends := Change.reshape_ends shape layout
  rw [reshape, changed_eq, ← Shape.isValid_iff]
  unfold Ends at ends
  revert ends
  rcases outcome (Change.reshape shape) layout with ⟨cause | _, final⟩
  · rintro ⟨_, ⟨invalid, _⟩ | ⟨_, other, _⟩⟩
    · simp [invalid]
    · simp [other]
  · rintro ⟨valid, same, rfl⟩
    simp [valid, same, eq_comm]

/-- An expansion that is accepted broadcasts the current view. -/
theorem expand_eq_ok_iff {layout expanded : Layout} {shape : Shape}
    : layout.expand shape = .ok expanded
      ↔ shape.Fits ∧ layout.current.expandsTo shape = true
        ∧ expanded = layout.push (layout.current.expanded shape) := by
  have ends := Change.expand_ends shape layout
  rw [expand, changed_eq, ← Shape.isValid_iff]
  unfold Ends at ends
  revert ends
  rcases outcome (Change.expand shape) layout with ⟨cause | _, final⟩
  · rintro ⟨_, ⟨invalid, _⟩ | ⟨_, other, _⟩⟩
    · simp [invalid]
    · simp [other]
  · rintro ⟨valid, grows, rfl⟩
    simp [valid, grows, eq_comm]

/-- An expansion to a shape that cannot be used is refused for that. -/
theorem expand_of_not_valid {layout : Layout} {shape : Shape} (invalid : shape.isValid ≠ true)
    : layout.expand shape = .error (.invalidShape shape) := by
  have ends := Change.expand_ends shape layout
  rw [expand, changed_eq]
  unfold Ends at ends
  revert ends
  rcases outcome (Change.expand shape) layout with ⟨cause | _, final⟩
  · rintro ⟨_, ⟨_, rfl⟩ | ⟨valid, _⟩⟩
    · rfl
    · exact absurd valid invalid
  · exact fun accepted => absurd accepted.1 invalid

theorem shape_of_expand {layout expanded : Layout} {shape : Shape}
    (done : layout.expand shape = .ok expanded)
    : expanded.shape = shape := by
  obtain ⟨_, _, rfl⟩ := expand_eq_ok_iff.mp done
  rfl

theorem WellFormed.reshape {layout reshaped : Layout} (wf : layout.WellFormed) {shape : Shape}
    (done : layout.reshape shape = .ok reshaped)
    : reshaped.WellFormed ∧ reshaped.physicalSize = layout.physicalSize := by
  obtain ⟨fits, same, rfl⟩ := reshape_eq_ok_iff.mp done
  have size : (View.dense shape).physicalSize = layout.physicalSize := by
    rw [View.physicalSize, View.physicalShape_dense, same]
  exact ⟨wf.push (View.dense_wellFormed fits) size, size⟩

/-- Expanding keeps to the rules and needs no memory. -/
theorem WellFormed.expand {layout expanded : Layout} (wf : layout.WellFormed) {shape : Shape}
    (done : layout.expand shape = .ok expanded)
    : expanded.WellFormed ∧ expanded.physicalSize = layout.physicalSize := by
  obtain ⟨fits, grows, rfl⟩ := expand_eq_ok_iff.mp done
  have size : (layout.current.expanded shape).physicalSize = layout.physicalSize := by
    rw [View.physicalSize, wf.current.physicalShape_expanded fits grows]
    rfl
  exact ⟨wf.push (wf.current.expanded fits grows) size, size⟩

theorem WellFormed.physicalSize_eq {layout : Layout} (wf : layout.WellFormed)
    : layout.physicalSize = layout.physicalShape.volume :=
  wf.current.physicalSize_eq

@[simp] theorem physicalShape_dense (shape : Shape) : (dense shape).physicalShape = shape :=
  View.physicalShape_dense shape

@[simp] theorem shape_dense (shape : Shape) : (dense shape).shape = shape := rfl

@[simp] theorem physicalSize_dense (shape : Shape) : (dense shape).physicalSize = shape.size := by
  rw [physicalSize, View.physicalSize, dense, View.physicalShape_dense]

end Layout

end LazyTensor
