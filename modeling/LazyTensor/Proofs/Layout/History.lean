import LazyTensor.Proofs.Layout.WellFormed

/-! Histories of view changes. Whatever calls are made on the layout of a usable shape, accepted
or refused, the stored elements stay as many as they were, every view keeps to the rules, and
no number that is computed on the way leaves the range of a word. An accepted call adds one
view behind the others, and a refused one changes nothing.
-/

namespace LazyTensor

-----------------------------------------------------------------------------------------
-- Numbers that are computed for a view
-----------------------------------------------------------------------------------------

/-- All that is computed for a shape is exact: its size, its strides, and each product of some
of its dimensions, which the partial products of both are.
-/
structure Shape.Exact (shape : Shape) : Prop where
  size : shape.size = shape.volume
  strides : shape.strides = shape.blocks
  products : ∀ part : Shape, part.Sublist shape → part.volume < wordRange

theorem Shape.Fits.exact {shape : Shape} (fits : shape.Fits) : shape.Exact where
  size := fits.size_eq
  strides := fits.strides_eq
  products := fun _ sub => (fits.sublist sub).bounded

theorem Shape.Fits.extent_lt {shape : Shape} (fits : shape.Fits) {extent : Nat}
    (member : extent ∈ shape)
    : extent < wordRange := by
  have alone := (fits.sublist (List.singleton_sublist.mpr member)).bounded
  rwa [volume_cons, volume_nil, Nat.mul_one] at alone

namespace View

/-- A view that reads its storage as it should: each dimension is stored in full or read again
from an extent of one, is the product of its factor and what is stored, and nothing computed
from the view divides by zero or leaves the range of a word.
-/
structure Regular (view : View) : Prop where
  rank : view.factors.length = view.shape.length
  storedRank : view.physicalShape.length = view.shape.length
  factors
    : List.Forall₂ (fun extent factor => factor = 1 ∨ factor = extent) view.shape view.factors
  extents : view.shape = view.factors.zipWith (· * ·) view.physicalShape
  divisors : ∀ factor ∈ view.factors, 0 < factor
  shown : view.shape.Exact
  stored : view.physicalShape.Exact
  strides
    : view.strides
      = view.physicalShape.blocks.zipWith
          (fun block factor => if 1 < factor then 0 else block) view.factors

theorem WellFormed.factor_range {view : View} (wf : view.WellFormed) {factor : Nat}
    (member : factor ∈ view.factors)
    : 0 < factor ∧ factor < wordRange := by
  obtain ⟨axis, inside, rfl⟩ := List.mem_iff_getElem.mp member
  have inShape : axis < view.shape.length := wf.length_eq ▸ inside
  have extent : view.shape[axis] ∈ view.shape := List.getElem_mem inShape
  rcases List.Forall₂.get wf.factors inShape inside with one | whole
  · rw [List.get_eq_getElem] at one
    exact one ▸ ⟨Nat.one_pos, by decide⟩
  · rw [List.get_eq_getElem, List.get_eq_getElem] at whole
    exact whole ▸ ⟨wf.fits.positive _ extent, wf.fits.extent_lt extent⟩

/-- A dimension is the product of its factor and its stored extent, by induction on the
dimensions.
-/
theorem WellFormed.shape_eq {view : View} (wf : view.WellFormed)
    : view.shape = view.factors.zipWith (· * ·) view.physicalShape := by
  induction wf using WellFormed.byDimension with
  | nil => rfl
  | @cons extent factor shape factors wf ih =>
      have head : extent = factor * (extent / factor) := by
        rcases wf.stored_extent with ⟨one, stored⟩ | ⟨whole, stored⟩
        · rw [stored, one, Nat.one_mul]
        · rw [stored, whole, Nat.mul_one]
      rw [physicalShape_cons, List.zipWith_cons_cons, ← ih, ← head]

theorem WellFormed.regular {view : View} (wf : view.WellFormed) : view.Regular where
  rank := wf.length_eq.symm
  storedRank := wf.length_physicalShape
  factors := wf.factors
  extents := wf.shape_eq
  divisors := fun _ member => (wf.factor_range member).1
  shown := wf.fits.exact
  stored := wf.physicalShape_fits.exact
  strides := by rw [View.strides, wf.physicalShape_fits.strides_eq]

end View

-----------------------------------------------------------------------------------------
-- Calls
-----------------------------------------------------------------------------------------

namespace Layout

/-- A call that changes the view of a layout. -/
inductive Call where
  | reshape (shape : Shape)
  | expand (shape : Shape)
  | insertUnits (leading trailing : Nat)
deriving DecidableEq, Repr

/-- A call as it is made in place. -/
def Call.step : Call → Change Unit
  | .reshape shape => .reshape shape
  | .expand shape => .expand shape
  | .insertUnits leading trailing => modify (·.insertUnits leading trailing)

/-- What a call answers. -/
def Call.answer (layout : Layout) (call : Call) : Except Error Layout := layout.changed call.step

/-- The layout as a call that is made in place leaves it, be it accepted or refused. -/
def after (layout : Layout) (call : Call) : Layout := (outcome call.step layout).2

/-- The layout after some calls, made one after another. -/
def afterAll (layout : Layout) (calls : List Call) : Layout := calls.foldl after layout

/-- A call that is made in place and refused leaves the layout as it was. -/
theorem Call.refused_ends (call : Call) (layout : Layout)
    : Ends call.step layout (fun _ _ => True) (fun _ final => final = layout) := by
  cases call with
  | reshape shape =>
      exact (Change.reshape_ends shape layout).mono (fun _ _ _ => trivial) fun _ _ failed => failed.1
  | expand shape =>
      exact (Change.expand_ends shape layout).mono (fun _ _ _ => trivial) fun _ _ failed => failed.1
  | insertUnits leading trailing => exact trivial

/-- The layout after a call is the one that the call is answered with, or the layout as it was. -/
theorem after_eq (layout : Layout) (call : Call)
    : layout.after call
      = match call.answer layout with
        | .ok next => next
        | .error _ => layout := by
  have ends := call.refused_ends layout
  rw [after, Call.answer, changed_eq]
  unfold Ends at ends
  revert ends
  rcases outcome call.step layout with ⟨cause | _, final⟩
  · exact id
  · exact fun _ => rfl

/-- What a call computes stays in range: all products of a shape that passes validation, and
each factor of a shape that the view expands to, for which nothing is divided by zero.
-/
def Call.InRange (layout : Layout) : Call → Prop
  | .reshape shape => shape.isValid = true → shape.Exact
  | .expand shape =>
      shape.isValid = true
      → layout.current.expandsTo shape = true
      → shape.Exact
        ∧ ∀ current new factor,
            (current, new, factor) ∈ layout.shape.zip (shape.zip layout.factors)
            → 0 < current ∧ new / current * factor < wordRange
  | .insertUnits _ _ => True

theorem WellFormed.call_inRange {layout : Layout} (wf : layout.WellFormed) (call : Call)
    : call.InRange layout := by
  cases call with
  | reshape shape => exact fun valid => (Shape.isValid_iff.mp valid).exact
  | expand shape =>
      intro valid grows
      have fits := Shape.isValid_iff.mp valid
      refine ⟨fits.exact, ?_⟩
      intro current new factor entry
      have known : current ∈ layout.shape := (List.of_mem_zip entry).1
      refine ⟨wf.current.fits.positive current known, ?_⟩
      -- The product is a factor of the view that the call would add.
      have added : new / current * factor ∈ (layout.current.expanded shape).factors := by
        obtain ⟨axis, below, same⟩ := List.mem_iff_getElem.mp entry
        simp only [List.length_zip, lt_inf_iff] at below
        simp only [List.getElem_zip, Prod.mk.injEq] at same
        obtain ⟨rfl, rfl, rfl⟩ := same
        refine List.mem_iff_getElem.mpr ⟨axis, ?_, ?_⟩
        · simp only [View.expanded, List.length_zipWith, lt_inf_iff]
          exact ⟨⟨below.1, below.2.1⟩, below.2.2⟩
        · simp only [View.expanded, List.getElem_zipWith]
          rfl
      exact ((wf.current.expanded fits grows).factor_range added).2
  | insertUnits leading trailing => trivial

/-- An accepted call adds one view behind the others and keeps to the rules. -/
theorem WellFormed.answer {layout next : Layout} (wf : layout.WellFormed) {call : Call}
    (done : call.answer layout = .ok next)
    : next.WellFormed ∧ next.physicalSize = layout.physicalSize
      ∧ next = layout.push next.current := by
  cases call with
  | reshape shape =>
      obtain ⟨_, _, rfl⟩ := reshape_eq_ok_iff.mp done
      exact ⟨(wf.reshape done).1, (wf.reshape done).2, rfl⟩
  | expand shape =>
      obtain ⟨_, _, rfl⟩ := expand_eq_ok_iff.mp done
      exact ⟨(wf.expand done).1, (wf.expand done).2, rfl⟩
  | insertUnits leading trailing =>
      cases done
      exact ⟨wf.insertUnits leading trailing, wf.physicalSize_insertUnits leading trailing, rfl⟩

@[simp] theorem views_push (layout : Layout) (view : View)
    : (layout.push view).views = layout.views ++ [view] := by
  simp [views, push]

/-- What a call leaves: one more view behind the others, or the layout as it was. -/
theorem WellFormed.after {layout : Layout} (wf : layout.WellFormed) (call : Call)
    : (layout.after call).WellFormed ∧ (layout.after call).physicalSize = layout.physicalSize
      ∧ layout.views <+: (layout.after call).views := by
  rw [after_eq]
  split
  next next done =>
    obtain ⟨kept, size, pushed⟩ := wf.answer done
    refine ⟨kept, size, ?_⟩
    rw [pushed, views_push]
    exact List.prefix_append _ _
  next => exact ⟨wf, rfl, List.prefix_refl _⟩

/-- What any calls leave, by induction on the calls. -/
theorem WellFormed.afterAll {layout : Layout} (wf : layout.WellFormed) (calls : List Call)
    : (layout.afterAll calls).WellFormed
      ∧ (layout.afterAll calls).physicalSize = layout.physicalSize
      ∧ layout.views <+: (layout.afterAll calls).views := by
  induction calls generalizing layout with
  | nil => exact ⟨wf, rfl, List.prefix_refl _⟩
  | cons call rest ih =>
      obtain ⟨next, size, grown⟩ := wf.after call
      obtain ⟨last, same, more⟩ := ih next
      exact ⟨last, same.trans size, grown.trans more⟩

theorem WellFormed.of_mem_views {layout : Layout} (wf : layout.WellFormed) {view : View}
    (member : view ∈ layout.views)
    : view.WellFormed ∧ view.physicalSize = layout.physicalSize := by
  rcases List.mem_append.mp member with earlier | last
  · exact wf.past view (List.mem_reverse.mp earlier)
  · rw [List.mem_singleton.mp last]
    exact ⟨wf.current, rfl⟩

-----------------------------------------------------------------------------------------
-- Every history
-----------------------------------------------------------------------------------------

/-- What holds of a layout over so many stored elements: each of its views is regular and reads
them all, and so do the current one's numbers of stored and of shown elements.
-/
structure Regular (layout : Layout) (stored : Nat) : Prop where
  physicalSize : layout.physicalSize = stored
  logicalSize : layout.logicalSize = layout.shape.volume
  views : ∀ view ∈ layout.views, view.Regular ∧ view.physicalSize = stored

/-- After any calls on the layout of a usable shape, accepted or refused, as many elements are
stored as the shape has, all views are regular, and the views that were there are still the
first ones. One call more computes nothing out of range; it adds one view when it is accepted
and changes nothing when it is refused.
-/
theorem afterAll_dense_regular {shape : Shape} (valid : shape.isValid = true)
    (calls : List Call)
    : let layout := (dense shape).afterAll calls
      layout.Regular shape.volume
      ∧ (∀ rest : List Call, layout.views <+: ((dense shape).afterAll (calls ++ rest)).views)
      ∧ ∀ call : Call,
          call.InRange layout
          ∧ (∀ next,
              call.answer layout = .ok next
              → layout.after call = next ∧ next.views = layout.views ++ [next.current])
          ∧ ∀ cause, call.answer layout = .error cause → layout.after call = layout := by
  intro layout
  have fits := Shape.isValid_iff.mp valid
  obtain ⟨wf, size, _⟩ := (dense_wellFormed fits).afterAll calls
  have stored : layout.physicalSize = shape.volume := by
    rw [size, physicalSize_dense, fits.size_eq]
  refine ⟨⟨stored, wf.current.fits.size_eq, ?_⟩, ?_, ?_⟩
  · intro view member
    have known := wf.of_mem_views member
    exact ⟨known.1.regular, known.2.trans stored⟩
  · intro rest
    rw [afterAll, List.foldl_append]
    exact (wf.afterAll rest).2.2
  · intro call
    refine ⟨wf.call_inRange call, ?_, ?_⟩
    · intro next done
      refine ⟨by rw [after_eq, done], ?_⟩
      rw [(wf.answer done).2.2, views_push]
      rfl
    · intro cause refused
      rw [after_eq, refused]

/-- A column is expanded along its rows, surrounded by dimensions of size one, refused a shape
of another size, and read as one dimension again.
-/
theorem afterAll_dense_regular_sample
    : Shape.isValid [3, 1] = true
      ∧ (let layout := (dense [3, 1]).afterAll
          [.expand [3, 4], .insertUnits 1 0, .reshape [12], .expand [7], .reshape [3]]
        layout.Regular 3
        ∧ layout.views.map View.factors = [[1, 1], [1, 4], [1, 1, 4], [1]]) := by
  have valid : Shape.isValid [3, 1] = true := by decide
  exact ⟨valid,
    (afterAll_dense_regular valid
      [.expand [3, 4], .insertUnits 1 0, .reshape [12], .expand [7], .reshape [3]]).1,
    by decide⟩

end Layout

end LazyTensor
