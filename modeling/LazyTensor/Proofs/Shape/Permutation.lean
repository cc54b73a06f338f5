import LazyTensor.Proofs.Shape.Size
import LazyTensor.Graph.Build
import Mathlib.Data.List.Perm.Subperm

/-! Orders of axes. The check of an order accepts the rearrangements of all axes, so the shape
that an accepted order gives has the same dimensions in another order.
-/

namespace LazyTensor

/-- The axes of an order are met once and are all unseen when the check passes, by induction on
the order: marking an axis makes a later repetition of it fail.
-/
theorem meetsOnce_iff (order : List Nat) (seen : Array Bool)
    : meetsOnce order seen = true
      ↔ order.Nodup ∧ ∀ axis ∈ order, seen[axis]? = some false := by
  induction order generalizing seen with
  | nil => simp [meetsOnce]
  | cons axis rest ih =>
      rw [meetsOnce]
      by_cases inside : axis < seen.size
      · have marked (other : Nat)
            : (seen.set axis true)[other]? = some false ↔ other ≠ axis ∧ seen[other]? = some false := by
          rw [Array.getElem?_set]
          by_cases same : axis = other
          · simp [same]
          · simp [same, Ne.symm same]
        rw [dif_pos inside, Bool.and_eq_true, ih]
        simp only [marked, List.nodup_cons, List.forall_mem_cons, Bool.not_eq_true',
          Array.getElem?_eq_getElem inside, Option.some.injEq]
        constructor
        · intro given
          rcases given with ⟨fresh, unique, others⟩
          exact ⟨⟨fun member => (others axis member).1 rfl, unique⟩, fresh,
            fun other member => (others other member).2⟩
        · intro given
          rcases given with ⟨⟨absent, unique⟩, fresh, others⟩
          exact ⟨fresh, unique, fun other member =>
            ⟨fun same => absent (same ▸ member), others other member⟩⟩
      · rw [dif_neg inside]
        have outside : seen[axis]? = none := Array.getElem?_eq_none (Nat.le_of_not_lt inside)
        simp [outside]

/-- The check of an order accepts the rearrangements of the axes below the rank: as many
different axes as there are leave none out.
-/
theorem isPermutation_iff {order : List Nat} {rank : Nat}
    : isPermutation order rank = true ↔ order.Perm (List.range rank) := by
  have unseen (axis : Nat)
      : (Array.replicate rank false)[axis]? = some false ↔ axis < rank := by
    simp [Array.getElem?_replicate]
  rw [isPermutation, Bool.and_eq_true, beq_iff_eq, meetsOnce_iff]
  simp only [unseen]
  constructor
  · intro given
    rcases given with ⟨length, unique, below⟩
    apply (unique.subperm fun axis member => List.mem_range.mpr (below axis member)).perm_of_length_le
    rw [List.length_range, length]
  · intro same
    refine ⟨by simpa using same.length_eq, same.nodup_iff.mpr List.nodup_range, ?_⟩
    intro axis member
    exact List.mem_range.mp (same.mem_iff.mp member)

/-- An accepted order has the axes below the rank. -/
theorem mem_iff_of_isPermutation {order : List Nat} {rank axis : Nat}
    (accepted : isPermutation order rank = true)
    : axis ∈ order ↔ axis < rank :=
  (isPermutation_iff.mp accepted).mem_iff.trans List.mem_range

theorem length_of_isPermutation {order : List Nat} {rank : Nat}
    (accepted : isPermutation order rank = true)
    : order.length = rank := by
  simpa using (isPermutation_iff.mp accepted).length_eq

theorem nodup_of_isPermutation {order : List Nat} {rank : Nat}
    (accepted : isPermutation order rank = true)
    : order.Nodup :=
  (isPermutation_iff.mp accepted).nodup_iff.mpr List.nodup_range

/-- Looking every position of a list up in order gives the list. -/
theorem filterMap_getElem?_range {α : Type} (values : List α)
    : (List.range values.length).filterMap (values[·]?) = values := by
  induction values with
  | nil => rfl
  | cons value rest ih =>
      simp only [List.length_cons, List.range_succ_eq_map, List.filterMap_cons,
        List.getElem?_cons_zero, List.filterMap_map]
      exact congrArg _ ih

theorem filterMap_getElem?_perm {α : Type} {order : List Nat} {values : List α}
    (same : order.Perm (List.range values.length))
    : (order.filterMap (values[·]?)).Perm values := by
  have picked := same.filterMap (values[·]?)
  rwa [filterMap_getElem?_range] at picked

theorem Buffer.permutedShape_perm {shape : Shape} {order : List Nat}
    (accepted : isPermutation order shape.length = true)
    : (Buffer.permutedShape shape order).Perm shape :=
  filterMap_getElem?_perm (isPermutation_iff.mp accepted)

end LazyTensor
