import LazyTensor.Proofs.Shape.Index
import Mathlib.Algebra.Order.Ring.Nat
import Mathlib.Data.List.Perm.Subperm
import Mathlib.Order.Bounds.Basic

/-! Row-major addresses as words. An address is a sum of products of coordinates and strides, and
in words every product and every sum wraps around. In a shape that passes validation none of them
does: any of the products, added in any order, stay below the number of elements. The last element
has the greatest address.
-/

namespace LazyTensor

namespace Shape

/-- Products of coordinates and strides, summed one after the other as words. -/
def wordSum (terms : List (Nat × Nat)) : Nat :=
  terms.foldl (fun sum term => (sum + term.1 * term.2 % wordRange) % wordRange) 0

/-- Products of coordinates and strides, summed as they are. -/
def exactSum (terms : List (Nat × Nat)) : Nat :=
  (terms.map fun term => term.1 * term.2).sum

-----------------------------------------------------------------------------------------
-- Sums
-----------------------------------------------------------------------------------------

/-- A sum of words is the exact one up to the range of a word, by induction on the products. -/
theorem foldl_wordSum (terms : List (Nat × Nat)) (start : Nat)
    : terms.foldl (fun sum term => (sum + term.1 * term.2 % wordRange) % wordRange)
          (start % wordRange)
        = (start + exactSum terms) % wordRange := by
  induction terms generalizing start with
  | nil => rfl
  | cons term rest ih =>
      have added
          : (start % wordRange + term.1 * term.2 % wordRange) % wordRange
            = (start + term.1 * term.2) % wordRange :=
        (Nat.add_mod _ _ _).symm
      have whole : exactSum (term :: rest) = term.1 * term.2 + exactSum rest := List.sum_cons
      rw [List.foldl_cons, added, ih, whole, Nat.add_assoc]

/-- A sum that fits in a word is exact. -/
theorem wordSum_eq_exactSum {terms : List (Nat × Nat)} (small : exactSum terms < wordRange)
    : wordSum terms = exactSum terms := by
  have wrapped := foldl_wordSum terms 0
  rw [Nat.zero_mod, Nat.zero_add] at wrapped
  exact wrapped.trans (Nat.mod_eq_of_lt small)

/-- Leaving products out does not make a sum greater, whatever the order. -/
theorem exactSum_le_of_subperm {part whole : List (Nat × Nat)} (sub : part.Subperm whole)
    : exactSum part ≤ exactSum whole := by
  obtain ⟨arranged, same, sublist⟩ := sub
  have total : exactSum arranged = exactSum part := (same.map _).sum_eq
  rw [← total]
  exact (sublist.map _).sum_le_sum (by simp)

/-- The products of all coordinates sum up to the address, by induction on the coordinates. -/
theorem exactSum_zip (index strides : List Nat)
    : exactSum (index.zip strides) = along index strides := by
  induction index generalizing strides with
  | nil => rfl
  | cons coordinate rest ih =>
      cases strides with
      | nil => rfl
      | cons stride inner => exact congrArg (coordinate * stride + ·) (ih inner)

-----------------------------------------------------------------------------------------
-- Strides and addresses of usable shapes
-----------------------------------------------------------------------------------------

/-- The block of a dimension has the elements of the dimensions within, by induction on the
dimensions.
-/
theorem getElem?_blocks {shape : Shape} {axis : Nat} (inside : axis < shape.length)
    : (blocks shape)[axis]? = some (shape.drop (axis + 1)).prod := by
  induction shape generalizing axis with
  | nil => cases inside
  | cons extent inner ih =>
      cases axis with
      | zero => rfl
      | succ axis => exact ih (Nat.lt_of_succ_lt_succ inside)

theorem length_blocks (shape : Shape) : (blocks shape).length = shape.length := by
  induction shape with
  | nil => rfl
  | cons extent inner ih => exact congrArg (· + 1) ih

/-- The address of an index in a usable shape is its position. -/
theorem Fits.exactSum_strides {shape : Shape} (fits : shape.Fits) (index : Index)
    : exactSum (index.zip shape.strides) = position shape index := by
  rw [exactSum_zip, fits.strides_eq, along_blocks]

/-- Any products of an address sum up to at most the last position. -/
theorem Fits.exactSum_le {shape : Shape} (fits : shape.Fits) {index : Index}
    (held : shape.Holds index) {terms : List (Nat × Nat)}
    (part : terms.Subperm (index.zip shape.strides))
    : exactSum terms ≤ shape.size - 1 := by
  have whole := exactSum_le_of_subperm part
  have last := held.position_lt
  rw [fits.exactSum_strides] at whole
  rw [fits.size_eq]
  omega

/-- The last position is the address of an index. -/
theorem Fits.exists_last {shape : Shape} (fits : shape.Fits)
    : ∃ index, shape.Holds index ∧ exactSum (index.zip shape.strides) = shape.size - 1 := by
  have last : shape.size - 1 < volume shape := by
    rw [fits.size_eq]
    exact Nat.sub_one_lt fits.volume_pos.ne'
  refine ⟨indexAt shape (shape.size - 1), indexAt_holds last, ?_⟩
  rw [fits.exactSum_strides, position_indexAt last]

/-- Validation does not look at the order of the dimensions. -/
theorem isValid_perm {shape other : Shape} (same : other.Perm shape)
    : other.isValid = shape.isValid := by
  apply Bool.eq_iff_iff.mpr
  rw [isValid_iff, isValid_iff]
  exact ⟨fun fits => fits.perm same, fun fits => fits.perm same.symm⟩

/-- Validation is exact and keeps all sizes, strides and addresses within words. A shape passes if
and only if its dimensions are positive and their product is below the range of a word, in
whatever order they stand. Then the size and every stride are the exact products, and any products
of coordinates and strides of an index, added as words in any order, give their exact sum. The
greatest address is the size less one.
-/
theorem validation_exact (shape : Shape)
    : (shape.isValid = true ↔ (∀ extent ∈ shape, 0 < extent) ∧ shape.prod < 2 ^ 64)
      ∧ (∀ other : Shape, other.Perm shape → other.isValid = shape.isValid)
      ∧ (shape.isValid = true →
        shape.size = shape.prod
        ∧ shape.strides.length = shape.length
        ∧ (∀ axis < shape.length,
            shape.strides[axis]? = some (shape.drop (axis + 1)).prod)
        ∧ (∀ index, shape.Holds index →
            ∀ terms : List (Nat × Nat), terms.Subperm (index.zip shape.strides) →
              wordSum terms = exactSum terms ∧ exactSum terms ≤ shape.size - 1)
        ∧ IsGreatest
            {address | ∃ index,
              shape.Holds index ∧ exactSum (index.zip shape.strides) = address}
            (shape.size - 1)) := by
  refine ⟨?_, fun other same => isValid_perm same, ?_⟩
  · rw [isValid_iff]
    exact ⟨fun fits => ⟨fits.positive, fits.bounded⟩, fun given => ⟨given.1, given.2⟩⟩
  intro valid
  have fits : shape.Fits := isValid_iff.mp valid
  have part {index : Index} (held : shape.Holds index) {terms : List (Nat × Nat)}
      (sub : terms.Subperm (index.zip shape.strides))
      : exactSum terms ≤ shape.size - 1 :=
    fits.exactSum_le held sub
  refine ⟨fits.size_eq, ?_, ?_, ?_, fits.exists_last, ?_⟩
  · rw [fits.strides_eq, length_blocks]
  · intro axis inside
    rw [fits.strides_eq, getElem?_blocks inside]
  · intro index held terms sub
    have most := part held sub
    have bounded := fits.bounded
    rw [← fits.size_eq] at bounded
    exact ⟨wordSum_eq_exactSum (by omega), most⟩
  · intro address given
    obtain ⟨index, held, rfl⟩ := given
    exact part held (List.Subperm.refl _)

/-- The address of the last element of the largest shape of two dimensions, summed from within. -/
theorem validation_exact_sample
    : isValid [4294967295, 4294967297] = true
      ∧ wordSum [(4294967296, 1), (4294967294, 4294967297)] = 2 ^ 64 - 2 := by
  have valid : isValid [4294967295, 4294967297] = true := by decide
  have held : Holds [4294967295, 4294967297] [4294967294, 4294967296] := by
    simp only [holds_cons, holds_nil, and_true]
    omega
  have sums := ((validation_exact [4294967295, 4294967297]).2.2 valid).2.2.2.1 _ held
  have swapped
      : List.Subperm [(4294967296, 1), (4294967294, 4294967297)]
          ([4294967294, 4294967296].zip (strides [4294967295, 4294967297])) :=
    (List.Perm.swap _ _ _).subperm
  exact ⟨valid, (sums _ swapped).1⟩

end Shape

end LazyTensor
