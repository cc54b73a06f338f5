import LazyTensor.Proofs.Kernel.Lowering
import Mathlib.Data.Fintype.EquivFin

/-! Orders that pass their check. The check goes through an order once and looks each entry up among
the axes that it has met, which never fails. An order that passes is a rearrangement of all axes, so
it can be undone, it keeps the number of elements, and what shapes and kernels look up in it is
there.
-/

namespace LazyTensor

-----------------------------------------------------------------------------------------
-- The loop of the check
-----------------------------------------------------------------------------------------

/-- Whether every entry is below the rank and not met before, by a loop that looks an entry up only
after it is found to be below the rank. A look-up outside of what there is has no answer.
-/
def scanAxes (rank : Nat) : List Nat → Array Bool → Option Bool
  | [], _ => some true
  | axis :: rest, seen =>
      if axis < rank then
        match seen[axis]? with
        | none => none
        | some met => if met then some false else scanAxes rank rest (seen.setIfInBounds axis true)
      else
        some false

/-- The check of an order as a loop, with no axis met in the beginning. -/
def scanOrder (order : List Nat) (rank : Nat) : Option Bool :=
  if order.length = rank then scanAxes rank order (Array.replicate rank false) else some false

/-- While there is a mark for each axis, every look-up has an answer, by induction on the order:
marking an axis keeps the number of marks.
-/
theorem scanAxes_eq {rank : Nat} (order : List Nat) {seen : Array Bool} (marks : seen.size = rank)
    : scanAxes rank order seen = some (meetsOnce order seen) := by
  induction order generalizing seen with
  | nil => rfl
  | cons axis rest ih =>
      rw [scanAxes, meetsOnce]
      by_cases inside : axis < seen.size
      · have marked : seen.setIfInBounds axis true = seen.set axis true := by
          rw [Array.setIfInBounds, dif_pos inside]
        have kept : (seen.set axis true).size = rank := by rw [Array.size_set, marks]
        rw [if_pos (marks ▸ inside), dif_pos inside, Array.getElem?_eq_getElem inside, marked]
        cases seen[axis] with
        | false => exact ih kept
        | true => rfl
      · rw [if_neg (marks ▸ inside), dif_neg inside]

/-- No look-up of the check fails. -/
theorem scanOrder_eq (order : List Nat) (rank : Nat)
    : scanOrder order rank = some (isPermutation order rank) := by
  rw [scanOrder, isPermutation]
  by_cases length : order.length = rank
  · rw [if_pos length, scanAxes_eq order Array.size_replicate]
    simp [length]
  · simp [length]

-----------------------------------------------------------------------------------------
-- Orders that pass
-----------------------------------------------------------------------------------------

section Accepted

variable {order : List Nat} {rank : Nat}

/-- An order that passes is a bijection of the axes: no two places have the same axis. -/
theorem exists_exchange (accepted : isPermutation order rank = true)
    : ∃ exchange : Equiv.Perm (Fin rank),
        ∀ place : Fin rank, order[place.val]? = some (exchange place).val := by
  have inOrder (place : Fin rank) : place.val < order.length := by
    rw [length_of_isPermutation accepted]
    exact place.isLt
  have below (place : Fin rank) : order.get ⟨place.val, inOrder place⟩ < rank :=
    (mem_iff_of_isPermutation accepted).mp (List.get_mem order ⟨place.val, inOrder place⟩)
  let axisAt (place : Fin rank) : Fin rank := ⟨order.get ⟨place.val, inOrder place⟩, below place⟩
  have apart : Function.Injective axisAt := by
    intro left right same
    apply Fin.ext
    exact (nodup_of_isPermutation accepted).getElem_inj_iff.mp (congrArg Fin.val same)
  refine ⟨Equiv.ofBijective axisAt (Finite.injective_iff_bijective.mp apart), ?_⟩
  intro place
  exact List.getElem?_eq_getElem (inOrder place)

/-- Shapes in another order have as many elements. -/
theorem Shape.size_permutedShape {shape : Shape}
    (accepted : isPermutation order shape.length = true)
    : volume (Buffer.permutedShape shape order) = volume shape
      ∧ size (Buffer.permutedShape shape order) = size shape := by
  have kept : volume (Buffer.permutedShape shape order) = volume shape :=
    (Buffer.permutedShape_perm accepted).prod_eq
  exact ⟨kept, by rw [size_eq_volume_mod, size_eq_volume_mod, kept]⟩

/-- The counter of each axis is there among the counters of a kernel. -/
theorem Kernel.getElem?_counters {axis : Nat} (inside : axis < rank)
    : (counters 0 rank)[axis]? = some axis := by
  simp [counters, inside]

end Accepted

/-- The check of orders is exact. It never looks up an axis that is out of range; it accepts just
the rearrangements of the axes below the rank; and an order that it accepts has an inverse, keeps the
number of elements of every shape, and names an extent of every shape and a counter of every kernel
with that rank, so rendering finds all of them.
-/
theorem isPermutation_exact (order : List Nat) (rank : Nat)
    : scanOrder order rank = some (isPermutation order rank)
      ∧ (isPermutation order rank = true ↔ order.Perm (List.range rank))
      ∧ (isPermutation order rank = true →
        (∃ exchange : Equiv.Perm (Fin rank),
          ∀ place : Fin rank, order[place.val]? = some (exchange place).val)
        ∧ (∀ shape : Shape, shape.length = rank →
            Shape.volume (Buffer.permutedShape shape order) = Shape.volume shape
            ∧ Shape.size (Buffer.permutedShape shape order) = Shape.size shape
            ∧ ∀ axis ∈ order, axis < shape.length)
        ∧ (∀ axis ∈ order, (Kernel.counters 0 rank)[axis]? = some axis)
        ∧ ∀ (task : Task) (source : Buffer), source.rank = rank →
            task.namesAxes order source = true) := by
  refine ⟨scanOrder_eq order rank, isPermutation_iff, ?_⟩
  intro accepted
  have below {axis : Nat} (member : axis ∈ order) : axis < rank :=
    (mem_iff_of_isPermutation accepted).mp member
  refine ⟨exists_exchange accepted, ?_, ?_, ?_⟩
  · intro shape length
    subst length
    obtain ⟨kept, words⟩ := Shape.size_permutedShape accepted
    exact ⟨kept, words, fun axis member => below member⟩
  · intro axis member
    exact Kernel.getElem?_counters (below member)
  · intro task source same
    exact Task.namesAxes_of_isPermutation (same.symm ▸ accepted)

/-- An order that moves every axis keeps the elements of a shape and finds all of its extents. -/
theorem isPermutation_exact_sample
    : isPermutation [2, 0, 1] 3 = true
      ∧ Shape.volume (Buffer.permutedShape [2, 3, 5] [2, 0, 1]) = 30
      ∧ ∀ axis ∈ [2, 0, 1], axis < ([2, 3, 5] : Shape).length := by
  have accepted : isPermutation [2, 0, 1] 3 = true := by decide
  obtain ⟨_, shapes, _⟩ := (isPermutation_exact [2, 0, 1] 3).2.2 accepted
  obtain ⟨kept, _, inside⟩ := shapes [2, 3, 5] rfl
  exact ⟨accepted, kept, inside⟩

end LazyTensor
