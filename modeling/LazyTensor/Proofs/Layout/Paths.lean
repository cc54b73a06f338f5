import LazyTensor.Proofs.Layout.History

/-! Paths to a view. Expanding twice comes to expanding once, whatever is done before a reshape does
not matter to it, and dimensions of size one may be put around a view before or after it is
expanded. The paths are accepted or refused together and end at one view, of one shape and with one
list of factors. Only the views on the way differ.
-/

namespace LazyTensor

namespace Shape

/-- The shape with dimensions of size one around it. -/
def withUnits (shape : Shape) (leading trailing : Nat) : Shape :=
  List.replicate leading 1 ++ shape ++ List.replicate trailing 1

theorem fits_withUnits_iff {shape : Shape} {leading trailing : Nat}
    : (shape.withUnits leading trailing).Fits ↔ shape.Fits := by
  have volume : (shape.withUnits leading trailing).volume = shape.volume := by
    simp [withUnits, volume_append, volume_replicate_one]
  constructor
  · intro fits
    have inside : shape.Sublist (shape.withUnits leading trailing) :=
      (List.sublist_append_right _ shape).trans (List.sublist_append_left _ _)
    exact fits.sublist inside
  · intro fits
    refine ⟨?_, volume.trans_lt fits.bounded⟩
    intro extent member
    simp only [withUnits, List.mem_append, List.mem_replicate] at member
    rcases member with (⟨_, rfl⟩ | member) | ⟨_, rfl⟩
    · exact Nat.one_pos
    · exact fits.positive extent member
    · exact Nat.one_pos

end Shape

namespace View

-----------------------------------------------------------------------------------------
-- Expanding twice
-----------------------------------------------------------------------------------------

/-- A view that expands by way of a shape expands at once, by induction on the dimensions: what has
grown on the way was of size one and may grow to anything.
-/
theorem expandsTo_trans {view : View} {middle target : Shape}
    (first : view.expandsTo middle = true) (second : (view.expanded middle).expandsTo target = true)
    : view.expandsTo target = true := by
  have grows := expandsTo_iff.mp first
  have again : List.Forall₂ (fun current new => current = new ∨ current = 1) middle target :=
    expandsTo_iff.mp second
  refine expandsTo_iff.mpr ?_
  clear first second
  generalize view.shape = shape at grows
  induction grows generalizing target with
  | nil =>
      cases again
      exact .nil
  | cons head _ ih =>
      cases again with
      | cons headAgain others =>
          refine .cons ?_ (ih others)
          rcases head with rfl | one
          · exact headAgain
          · exact Or.inr one

/-- Growing twice multiplies the factor as growing once does. -/
theorem growth_trans {extent middle target factor : Nat} (positive : 0 < extent)
    (positiveMiddle : 0 < middle) (first : extent = middle ∨ extent = 1)
    (second : middle = target ∨ middle = 1)
    : target / middle * (middle / extent * factor) = target / extent * factor := by
  rcases first with rfl | rfl
  · rw [Nat.div_self positive, Nat.one_mul]
  · rcases second with rfl | rfl
    · rw [Nat.div_self positiveMiddle, Nat.one_mul]
    · rw [Nat.div_one, Nat.one_mul]

/-- A view that is expanded twice is the view that is expanded at once, by induction on the
dimensions.
-/
theorem WellFormed.expanded_expanded {view : View} (wf : view.WellFormed) {middle target : Shape}
    (fits : middle.Fits) (first : view.expandsTo middle = true)
    (second : (view.expanded middle).expandsTo target = true)
    : (view.expanded middle).expanded target = view.expanded target := by
  have grows := expandsTo_iff.mp first
  have again : List.Forall₂ (fun current new => current = new ∨ current = 1) middle target :=
    expandsTo_iff.mp second
  suffices factors
      : ((view.expanded middle).expanded target).factors = (view.expanded target).factors by
    exact congrArg (View.mk target) factors
  clear first second
  induction wf using WellFormed.byDimension generalizing middle target with
  | nil =>
      cases grows
      cases again
      rfl
  | cons wf ih =>
      cases grows with
      | cons head rest =>
          cases again with
          | cons headAgain others =>
              have inner := ih fits.tail rest others
              rw [expanded_cons, expanded_cons, expanded_cons]
              exact congrArg₂ List.cons (growth_trans wf.head.1 fits.head_pos head headAgain) inner

-----------------------------------------------------------------------------------------
-- Dimensions of size one around an expanded view
-----------------------------------------------------------------------------------------

/-- Dimensions of size one that are left as they are do not matter to whether a view expands. -/
theorem expandsTo_withUnits {view : View} {shape : Shape} {leading trailing : Nat}
    : (view.withUnits leading trailing).expandsTo (shape.withUnits leading trailing)
      = view.expandsTo shape := by
  by_cases length : shape.length = view.shape.length
  · simp [expandsTo, View.withUnits, Shape.withUnits, length, List.zip_append]
  · have whole
        : (leading + (shape.length + trailing) == leading + (view.shape.length + trailing)) = false :=
      beq_eq_false_iff_ne.mpr (by omega)
    simp [expandsTo, View.withUnits, Shape.withUnits, beq_eq_false_iff_ne.mpr length, whole]

/-- Dimensions of size one are put around an expanded view, or the view that has them around it is
expanded: their factors are one either way.
-/
theorem WellFormed.withUnits_expanded {view : View} (wf : view.WellFormed) {shape : Shape}
    (grows : view.expandsTo shape = true) (leading trailing : Nat)
    : (view.expanded shape).withUnits leading trailing
      = (view.withUnits leading trailing).expanded (shape.withUnits leading trailing) := by
  have length : view.shape.length = shape.length := List.Forall₂.length_eq (expandsTo_iff.mp grows)
  have growth
      : (view.withUnits leading trailing).shape.zipWith (fun current new => new / current)
            (shape.withUnits leading trailing)
        = List.replicate leading 1 ++ view.shape.zipWith (fun current new => new / current) shape
          ++ List.replicate trailing 1 := by
    simp only [View.withUnits, Shape.withUnits]
    rw [List.zipWith_append (by simp [length]), List.zipWith_append (by simp)]
    simp
  have factors
      : ((view.withUnits leading trailing).expanded (shape.withUnits leading trailing)).factors
        = ((view.expanded shape).withUnits leading trailing).factors := by
    rw [View.expanded, growth]
    simp only [View.withUnits, View.expanded]
    rw [List.zipWith_append (by simp [wf.length_eq, ← length]), List.zipWith_append (by simp)]
    simp
  exact congrArg (View.mk (shape.withUnits leading trailing)) factors.symm

end View

namespace Layout

variable {layout : Layout}

/-- A layout that is expanded by way of another is expanded at once. -/
theorem WellFormed.expand_shortcut (wf : layout.WellFormed) {first second : Shape}
    {middle last : Layout} (done : layout.expand first = .ok middle)
    (again : middle.expand second = .ok last)
    : layout.expand second = .ok (layout.push last.current) := by
  obtain ⟨fits, grows, rfl⟩ := expand_eq_ok_iff.mp done
  obtain ⟨fitsSecond, growsAgain, rfl⟩ := expand_eq_ok_iff.mp again
  refine expand_eq_ok_iff.mpr ⟨fitsSecond, View.expandsTo_trans grows growsAgain, ?_⟩
  exact congrArg layout.push (wf.current.expanded_expanded fits grows growsAgain)

/-- What some calls answer, each made on the answer of the one before. The first refusal ends them.
-/
def answerAll (layout : Layout) (calls : List Call) : Except Error Layout :=
  calls.foldlM (fun layout call => call.answer layout) layout

/-- Calls that are all accepted keep to the rules and to the number of stored elements, by induction
on the calls.
-/
theorem WellFormed.answerAll (wf : layout.WellFormed) {calls : List Call} {last : Layout}
    (done : layout.answerAll calls = .ok last)
    : last.WellFormed ∧ last.physicalSize = layout.physicalSize := by
  induction calls generalizing layout with
  | nil =>
      obtain rfl := Except.ok.inj done
      exact ⟨wf, rfl⟩
  | cons call rest ih =>
      rw [Layout.answerAll, List.foldlM_cons] at done
      cases answered : call.answer layout with
      | error cause =>
          rw [answered] at done
          cases done
      | ok next =>
          rw [answered] at done
          obtain ⟨kept, size, _⟩ := wf.answer answered
          obtain ⟨lastWf, same⟩ := ih kept done
          exact ⟨lastWf, same.trans size⟩

/-- A reshape at the end of a path is accepted at once: only the number of stored elements matters to
it.
-/
theorem WellFormed.reshape_shortcut (wf : layout.WellFormed) {path : List Call} {shape : Shape}
    {last : Layout} (done : layout.answerAll (path ++ [.reshape shape]) = .ok last)
    : layout.reshape shape = .ok (layout.push last.current) := by
  rw [Layout.answerAll, List.foldlM_append] at done
  cases answered : layout.answerAll path with
  | error cause =>
      rw [Layout.answerAll] at answered
      rw [answered] at done
      cases done
  | ok middle =>
      have size := (wf.answerAll answered).2
      rw [Layout.answerAll] at answered
      rw [answered] at done
      have reshaped : middle.reshape shape = .ok last := (bind_pure _).symm.trans done
      obtain ⟨fits, same, rfl⟩ := reshape_eq_ok_iff.mp reshaped
      exact reshape_eq_ok_iff.mpr ⟨fits, same.trans size, rfl⟩

/-- A layout that has dimensions of size one around it is expanded where the layout is, and to the
same view with these dimensions around it.
-/
theorem WellFormed.expand_insertUnits_iff (wf : layout.WellFormed) {shape : Shape}
    {leading trailing : Nat} {last : Layout}
    : (layout.insertUnits leading trailing).expand (shape.withUnits leading trailing) = .ok last
      ↔ ∃ middle,
          layout.expand shape = .ok middle
          ∧ last
            = (layout.insertUnits leading trailing).push
                (middle.insertUnits leading trailing).current := by
  simp only [expand_eq_ok_iff]
  rw [Shape.fits_withUnits_iff]
  change shape.Fits ∧ (layout.current.withUnits leading trailing).expandsTo _ = true ∧ _ ↔ _
  rw [View.expandsTo_withUnits]
  constructor
  · intro given
    obtain ⟨fits, grows, rfl⟩ := given
    refine ⟨_, ⟨fits, grows, rfl⟩, ?_⟩
    exact congrArg (layout.insertUnits leading trailing).push
      (wf.current.withUnits_expanded grows leading trailing).symm
  · intro given
    obtain ⟨middle, ⟨fits, grows, rfl⟩, rfl⟩ := given
    refine ⟨fits, grows, ?_⟩
    exact congrArg (layout.insertUnits leading trailing).push
      (wf.current.withUnits_expanded grows leading trailing)

/-- After any calls on the layout of a usable shape, accepted or refused, paths to a view agree. What
can be expanded by way of another shape can be expanded at once; what can be reshaped after other
calls can be reshaped at once; and a layout can be expanded iff it can with dimensions of size one
around it, which may as well be put there afterwards. On either path the last view is the same, with
its shape and its factors, and only the views before it differ.
-/
theorem afterAll_paths_agree {shape : Shape} (valid : shape.isValid = true) (calls : List Call)
    : let layout := (dense shape).afterAll calls
      (∀ first second middle last,
        layout.expand first = .ok middle → middle.expand second = .ok last →
          layout.expand second = .ok (layout.push last.current))
      ∧ (∀ path target last,
          layout.answerAll (path ++ [.reshape target]) = .ok last →
            layout.reshape target = .ok (layout.push last.current))
      ∧ ∀ target leading trailing last,
          (layout.insertUnits leading trailing).expand (target.withUnits leading trailing) = .ok last
          ↔ ∃ middle,
              layout.expand target = .ok middle
              ∧ last
                = (layout.insertUnits leading trailing).push
                    (middle.insertUnits leading trailing).current := by
  intro layout
  have wf : layout.WellFormed :=
    ((dense_wellFormed (Shape.isValid_iff.mp valid)).afterAll calls).1
  exact ⟨fun _ _ _ _ => wf.expand_shortcut, fun _ _ _ => wf.reshape_shortcut,
    fun _ _ _ _ => wf.expand_insertUnits_iff⟩

/-- A column that is expanded along its rows and then to two blocks is expanded to them at once; it is
read as a row after it was expanded as well as before; and its rows may be expanded within one
dimension more.
-/
theorem afterAll_paths_agree_sample
    : Shape.isValid [3, 1] = true
      ∧ (let column := (dense [3, 1]).afterAll [.insertUnits 1 0]
        column.expand [2, 3, 4] = .ok (column.push ⟨[2, 3, 4], [2, 1, 4]⟩)
        ∧ column.reshape [3] = .ok (column.push (.dense [3]))
        ∧ (column.insertUnits 1 0).expand [1, 1, 3, 4]
          = .ok ((column.insertUnits 1 0).push ⟨[1, 1, 3, 4], [1, 1, 1, 4]⟩)) := by
  have valid : Shape.isValid [3, 1] = true := by decide
  obtain ⟨expand, reshape, units⟩ := afterAll_paths_agree valid [.insertUnits 1 0]
  refine ⟨valid, ?_, ?_, ?_⟩
  · exact expand [1, 3, 4] [2, 3, 4] _ _ rfl rfl
  · exact reshape [.expand [1, 3, 4], .reshape [3, 1], .expand [3, 2]] [3] _ rfl
  · exact (units [1, 3, 4] 1 0 _).mpr ⟨_, rfl, rfl⟩

end Layout

end LazyTensor
