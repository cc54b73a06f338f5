import LazyTensor.Shape
import Mathlib.Algebra.Order.BigOperators.Group.List

/-! Exact sizes of shapes. A shape that passes validation has positive dimensions and an exact
product below the range of a word, so no product that is formed for it wraps around: its size,
its strides and the sizes of all shapes inside it are exact.
-/

namespace LazyTensor

namespace Shape

/-- Every dimension is positive and the exact number of elements fits in a word. -/
structure Fits (shape : Shape) : Prop where
  positive : ∀ extent ∈ shape, 0 < extent
  bounded : shape.volume < wordRange

@[simp] theorem volume_nil : volume [] = 1 := rfl

@[simp] theorem volume_cons (extent : Nat) (inner : Shape)
    : volume (extent :: inner) = extent * volume inner := rfl

theorem volume_eq_prod (shape : Shape) : volume shape = shape.prod := rfl

theorem volume_append (outer inner : Shape)
    : volume (outer ++ inner) = volume outer * volume inner := by
  simp only [volume_eq_prod, List.prod_append]

theorem volume_replicate_one (count : Nat) : volume (List.replicate count 1) = 1 := by
  simp [volume_eq_prod]

theorem volume_pos {shape : Shape} (positive : ∀ extent ∈ shape, 0 < extent)
    : 0 < volume shape := by
  induction shape with
  | nil => exact Nat.one_pos
  | cons extent inner ih =>
      exact Nat.mul_pos (positive extent (by simp))
        (ih (fun other member => positive other (List.mem_cons_of_mem _ member)))

/-- Leaving dimensions out does not add elements, by induction on what is left out. -/
theorem volume_le_of_sublist {part whole : Shape} (sub : part.Sublist whole)
    (positive : ∀ extent ∈ whole, 0 < extent)
    : volume part ≤ volume whole := by
  induction sub with
  | slnil => exact Nat.le_refl _
  | cons extent _ ih =>
      have rest := ih (fun other member => positive other (List.mem_cons_of_mem _ member))
      exact rest.trans (Nat.le_mul_of_pos_left _ (positive extent (by simp)))
  | cons_cons extent _ ih =>
      have rest := ih (fun other member => positive other (List.mem_cons_of_mem _ member))
      exact Nat.mul_le_mul_left extent rest

namespace Fits

theorem volume_pos {shape : Shape} (fits : shape.Fits) : 0 < volume shape :=
  Shape.volume_pos fits.positive

theorem sublist {part whole : Shape} (fits : whole.Fits) (sub : part.Sublist whole)
    : part.Fits where
  positive := fun extent member => fits.positive extent (sub.subset member)
  bounded := (volume_le_of_sublist sub fits.positive).trans_lt fits.bounded

theorem tail {extent : Nat} {inner : Shape} (fits : Fits (extent :: inner)) : inner.Fits :=
  fits.sublist (List.sublist_cons_self extent inner)

theorem head_pos {extent : Nat} {inner : Shape} (fits : Fits (extent :: inner)) : 0 < extent :=
  fits.positive extent (by simp)

theorem perm {left right : Shape} (fits : left.Fits) (same : left.Perm right)
    : right.Fits where
  positive := fun extent member => fits.positive extent (same.mem_iff.mpr member)
  bounded := by
    have bounded := fits.bounded
    rwa [volume_eq_prod, same.prod_eq, ← volume_eq_prod] at bounded

theorem scalar : Fits [] := ⟨by simp, by decide⟩

end Fits

-----------------------------------------------------------------------------------------
-- Validation decides what fits
-----------------------------------------------------------------------------------------

/-- The check of a shape from a partial product on, by induction on the remaining dimensions:
partial products only grow while dimensions are positive, so an early exit loses nothing.
-/
theorem foldlM_checked_eq_some (shape : Shape) (start result : Nat) (small : start < wordRange)
    : shape.foldlM
          (fun size extent => if 0 < extent then checkedMul size extent else none) start
        = some result
      ↔ (∀ extent ∈ shape, 0 < extent) ∧ start * volume shape < wordRange
        ∧ start * volume shape = result := by
  induction shape generalizing start with
  | nil => simp [small]
  | cons extent inner ih =>
      rw [List.foldlM_cons]
      by_cases zero : extent = 0
      · simp [zero]
      have positive : 0 < extent := Nat.pos_of_ne_zero zero
      by_cases fits : start * extent < wordRange
      · rw [if_pos positive, checkedMul, if_pos fits, Option.bind_eq_bind, Option.bind_some,
          ih (start * extent) fits]
        simp only [List.forall_mem_cons, positive, true_and, volume_cons, Nat.mul_assoc]
      · rw [if_pos positive, checkedMul, if_neg fits, Option.bind_eq_bind, Option.bind_none]
        simp only [reduceCtorEq, false_iff]
        intro given
        rcases given with ⟨others, bounded, _⟩
        have inside := volume_pos (fun other member =>
          others other (List.mem_cons_of_mem _ member))
        rw [volume_cons, ← Nat.mul_assoc] at bounded
        exact fits (Nat.lt_of_le_of_lt (Nat.le_mul_of_pos_right _ inside) bounded)

/-- A checked size is the exact one, and there is one for the shapes that fit. -/
theorem checkedSize_eq_some_iff {shape : Shape} {result : Nat}
    : checkedSize shape = some result ↔ shape.Fits ∧ volume shape = result := by
  rw [checkedSize, foldlM_checked_eq_some shape 1 result (by decide), Nat.one_mul]
  exact ⟨fun h => ⟨⟨h.1, h.2.1⟩, h.2.2⟩, fun h => ⟨h.1.positive, h.1.bounded, h.2⟩⟩

/-- Validation accepts the shapes that fit and no others. -/
theorem isValid_iff {shape : Shape} : shape.isValid = true ↔ shape.Fits := by
  rw [isValid, Option.isSome_iff_exists]
  simp only [checkedSize_eq_some_iff]
  exact ⟨fun ⟨_, fits, _⟩ => fits, fun fits => ⟨_, fits, rfl⟩⟩

instance (shape : Shape) : Decidable shape.Fits := decidable_of_iff _ isValid_iff

-----------------------------------------------------------------------------------------
-- Sizes and strides as words
-----------------------------------------------------------------------------------------

/-- The size is the exact product up to the range of a word, by induction on the dimensions. -/
theorem size_eq_volume_mod (shape : Shape) : size shape = volume shape % wordRange := by
  induction shape with
  | nil => rfl
  | cons extent inner ih =>
      rw [size_cons, ih, Nat.mod_mul_mod, volume_cons, Nat.mul_comm]

theorem Fits.size_eq {shape : Shape} (fits : shape.Fits) : size shape = volume shape := by
  rw [size_eq_volume_mod, Nat.mod_eq_of_lt fits.bounded]

/-- The exact sizes of the blocks that a step along each dimension passes over. -/
def blocks : Shape → List Nat
  | [] => []
  | _ :: inner => volume inner :: blocks inner

/-- The strides of a usable shape are exact block sizes, by induction on the dimensions. -/
theorem Fits.strides_eq {shape : Shape} (fits : shape.Fits) : strides shape = blocks shape := by
  induction shape with
  | nil => rfl
  | cons extent inner ih => rw [strides_cons, fits.tail.size_eq, ih fits.tail, blocks]

end Shape

end LazyTensor
