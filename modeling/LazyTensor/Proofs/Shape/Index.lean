import LazyTensor.Proofs.Shape.Size
import Mathlib.Data.List.Forall2
import Mathlib.Data.List.Nodup

/-! Indices of a shape and their row-major positions. The positions of the indices of a shape,
listed with the last coordinate moving fastest, are the numbers below its exact size, each once
and in ascending order.
-/

namespace LazyTensor

/-- Coordinates, outermost first. -/
abbrev Index := List Nat

namespace Shape

/-- The index has one coordinate for each dimension, below its extent. -/
def Holds (shape : Shape) (index : Index) : Prop := List.Forall₂ (· < ·) index shape

/-- The row-major position of an index. -/
def position : Shape → Index → Nat
  | _ :: inner, coordinate :: rest => coordinate * volume inner + position inner rest
  | _, _ => 0

/-- The index at a row-major position. -/
def indexAt : Shape → Nat → Index
  | [], _ => []
  | _ :: inner, place => place / volume inner :: indexAt inner (place % volume inner)

/-- All indices of a shape, the last coordinate moving fastest. -/
def indices : Shape → List Index
  | [] => [[]]
  | extent :: inner =>
      (List.range extent).flatMap fun coordinate => (indices inner).map (coordinate :: ·)

-----------------------------------------------------------------------------------------
-- Indices within a shape
-----------------------------------------------------------------------------------------

@[simp] theorem holds_nil {index : Index} : Holds [] index ↔ index = [] := by
  simp [Holds]

@[simp] theorem holds_cons {extent coordinate : Nat} {inner : Shape} {rest : Index}
    : Holds (extent :: inner) (coordinate :: rest)
      ↔ coordinate < extent ∧ Holds inner rest := by
  simp [Holds]

theorem Holds.exists_cons {extent : Nat} {inner : Shape} {index : Index}
    (held : Holds (extent :: inner) index)
    : ∃ coordinate rest, index = coordinate :: rest ∧ coordinate < extent
        ∧ Holds inner rest := by
  cases index with
  | nil => simp [Holds] at held
  | cons coordinate rest => exact ⟨coordinate, rest, rfl, holds_cons.mp held⟩

theorem Holds.length_eq {shape : Shape} {index : Index} (held : shape.Holds index)
    : index.length = shape.length :=
  List.Forall₂.length_eq held

theorem Holds.exists_pair {rows columns : Nat} {index : Index} (held : Holds [rows, columns] index)
    : ∃ row column, index = [row, column] ∧ row < rows ∧ column < columns := by
  obtain ⟨row, rest, rfl, rowBelow, inside⟩ := held.exists_cons
  obtain ⟨column, none, rfl, columnBelow, empty⟩ := inside.exists_cons
  exact ⟨row, column, by rw [holds_nil.mp empty], rowBelow, columnBelow⟩

theorem Holds.getElem_lt {shape : Shape} {index : Index} (held : shape.Holds index)
    {axis : Nat} (inIndex : axis < index.length) (inShape : axis < shape.length)
    : index[axis] < shape[axis] :=
  List.Forall₂.get held inIndex inShape

theorem holds_of_getElem_lt {shape : Shape} {index : Index}
    (length : index.length = shape.length)
    (below
      : ∀ axis (inIndex : axis < index.length) (inShape : axis < shape.length),
          index[axis] < shape[axis])
    : shape.Holds index :=
  List.forall₂_iff_get.mpr ⟨length, below⟩

/-- Coordinates are their own remainders. -/
theorem Holds.zipWith_mod {shape : Shape} {index : Index} (held : shape.Holds index)
    : index.zipWith (· % ·) shape = index := by
  apply List.ext_getElem
  · rw [List.length_zipWith, held.length_eq, Nat.min_self]
  · intro axis _ inIndex
    simp only [List.getElem_zipWith]
    exact Nat.mod_eq_of_lt (held.getElem_lt inIndex (held.length_eq ▸ inIndex))

-----------------------------------------------------------------------------------------
-- Positions
-----------------------------------------------------------------------------------------

/-- The position of an index is below the exact size, by induction on the dimensions. -/
theorem Holds.position_lt {shape : Shape} {index : Index} (held : shape.Holds index)
    : position shape index < volume shape := by
  induction shape generalizing index with
  | nil => simp [position]
  | cons extent inner ih =>
      obtain ⟨coordinate, rest, rfl, below, inside⟩ := held.exists_cons
      have next : (coordinate + 1) * volume inner ≤ extent * volume inner :=
        Nat.mul_le_mul_right _ below
      have last := ih inside
      rw [Nat.succ_mul] at next
      simp only [position, volume_cons]
      omega

/-- The coordinates of a position form an index, by induction on the dimensions. -/
theorem indexAt_holds {shape : Shape} {place : Nat} (below : place < volume shape)
    : shape.Holds (indexAt shape place) := by
  induction shape generalizing place with
  | nil => simp [indexAt]
  | cons extent inner ih =>
      have inside : 0 < volume inner :=
        Nat.pos_of_ne_zero fun zero => by simp [zero] at below
      exact holds_cons.mpr
        ⟨(Nat.div_lt_iff_lt_mul inside).mpr below, ih (Nat.mod_lt place inside)⟩

/-- A position is found again from its coordinates. -/
theorem position_indexAt {shape : Shape} {place : Nat} (below : place < volume shape)
    : position shape (indexAt shape place) = place := by
  induction shape generalizing place with
  | nil =>
      have zero : place = 0 := Nat.lt_one_iff.mp below
      simp [position, zero]
  | cons extent inner ih =>
      have inside : 0 < volume inner :=
        Nat.pos_of_ne_zero fun zero => by simp [zero] at below
      rw [indexAt, position, ih (Nat.mod_lt place inside), Nat.mul_comm]
      exact Nat.div_add_mod place (volume inner)

/-- An index is found again from its position, because the inner position is a remainder. -/
theorem Holds.indexAt_position {shape : Shape} {index : Index} (held : shape.Holds index)
    : indexAt shape (position shape index) = index := by
  induction shape generalizing index with
  | nil => rw [holds_nil.mp held, indexAt]
  | cons extent inner ih =>
      obtain ⟨coordinate, rest, rfl, _, inside⟩ := held.exists_cons
      have last := inside.position_lt
      have positive : 0 < volume inner := Nat.zero_lt_of_lt last
      rw [position, indexAt, Nat.add_comm, Nat.add_mul_div_right _ _ positive,
        Nat.div_eq_of_lt last, Nat.zero_add, Nat.add_mul_mod_self_right,
        Nat.mod_eq_of_lt last, ih inside]

theorem Holds.eq_of_position_eq {shape : Shape} {left right : Index}
    (heldLeft : shape.Holds left) (heldRight : shape.Holds right)
    (same : position shape left = position shape right)
    : left = right := by
  rw [← heldLeft.indexAt_position, same, heldRight.indexAt_position]

-----------------------------------------------------------------------------------------
-- All indices in row-major order
-----------------------------------------------------------------------------------------

/-- One item of a list that has it once is found alone. -/
theorem filter_of_single {α : Type} {items : List α} {item : α} {found : α → Bool}
    (unique : items.Nodup) (member : item ∈ items)
    (single : ∀ other ∈ items, found other = true ↔ other = item)
    : items.filter found = [item] := by
  classical
  have same : items.filter found = items.filter (· = item) := by
    refine List.filter_congr ?_
    intro other inside
    exact Bool.eq_iff_iff.mpr ((single other inside).trans decide_eq_true_iff.symm)
  rw [same, List.filter_eq, List.count_eq_one_of_mem unique member]
  rfl

/-- A single item of a list that has it once contributes. -/
theorem flatMap_of_single {α β : Type} {items : List α} {item : α} {part : α → List β}
    (unique : items.Nodup) (member : item ∈ items)
    (others : ∀ other ∈ items, other ≠ item → part other = [])
    : items.flatMap part = part item := by
  induction items with
  | nil => cases member
  | cons head rest ih =>
      obtain ⟨fresh, unique⟩ := List.nodup_cons.mp unique
      rw [List.flatMap_cons]
      rcases List.mem_cons.mp member with rfl | inside
      · have empty : rest.flatMap part = [] := by
          refine List.flatMap_eq_nil_iff.mpr ?_
          intro other inside
          exact others other (List.mem_cons_of_mem _ inside) fun same => fresh (same ▸ inside)
        rw [empty, List.append_nil]
      · rw [others head (by simp) fun same => fresh (same ▸ inside), List.nil_append]
        exact ih unique inside fun other member => others other (List.mem_cons_of_mem _ member)

/-- The list of all indices holds just the indices of the shape. -/
theorem mem_indices {shape : Shape} {index : Index} : index ∈ indices shape ↔ shape.Holds index := by
  induction shape generalizing index with
  | nil => simp [indices]
  | cons extent inner ih =>
      simp only [indices, List.mem_flatMap, List.mem_range, List.mem_map, ih]
      constructor
      · intro given
        rcases given with ⟨coordinate, below, rest, inside, rfl⟩
        exact holds_cons.mpr ⟨below, inside⟩
      · intro held
        obtain ⟨coordinate, rest, rfl, below, inside⟩ := held.exists_cons
        exact ⟨coordinate, below, rest, inside, rfl⟩

/-- Blocks of equal length that follow each other fill a range. -/
theorem flatMap_range_block (count block : Nat)
    : (List.range count).flatMap (fun row => (List.range block).map (row * block + ·))
      = List.range (count * block) := by
  induction count with
  | zero => simp
  | succ count ih =>
      rw [List.range_succ, List.flatMap_append, ih, Nat.succ_mul, List.range_add]
      simp

/-- The positions of all indices count up from zero, by induction on the dimensions: each
coordinate contributes a block of inner positions.
-/
theorem map_position_indices (shape : Shape)
    : (indices shape).map (position shape) = List.range (volume shape) := by
  induction shape with
  | nil => rfl
  | cons extent inner ih =>
      have block (coordinate : Nat)
          : ((indices inner).map (coordinate :: ·)).map (position (extent :: inner))
            = (List.range (volume inner)).map (coordinate * volume inner + ·) := by
        rw [← ih, List.map_map, List.map_map]
        rfl
      rw [indices, List.map_flatMap]
      simp only [block]
      exact flatMap_range_block extent (volume inner)

theorem length_indices (shape : Shape) : (indices shape).length = volume shape := by
  rw [← List.length_map (position shape), map_position_indices, List.length_range]

/-- An index is listed at its position. -/
theorem Holds.getElem?_indices {shape : Shape} {index : Index} (held : shape.Holds index)
    : (indices shape)[position shape index]? = some index := by
  have below : position shape index < (indices shape).length :=
    held.position_lt.trans_eq (length_indices shape).symm
  rw [List.getElem?_eq_getElem below, Option.some.injEq]
  have listed : shape.Holds (indices shape)[position shape index] :=
    mem_indices.mp (List.getElem_mem below)
  have place : position shape (indices shape)[position shape index] = position shape index := by
    rw [← List.getElem_map (position shape) (h := by simpa using below)]
    simp only [map_position_indices, List.getElem_range]
  exact listed.eq_of_position_eq held place

/-- No index is listed twice, since no position is. -/
theorem nodup_indices (shape : Shape) : (indices shape).Nodup := by
  apply List.Nodup.of_map (position shape)
  rw [map_position_indices]
  exact List.nodup_range

-----------------------------------------------------------------------------------------
-- Positions as sums of products
-----------------------------------------------------------------------------------------

/-- The products of coordinates and strides, summed. -/
def along : (index strides : List Nat) → Nat
  | coordinate :: rest, stride :: inner => coordinate * stride + along rest inner
  | _, _ => 0

/-- Row-major strides lead to row-major positions, by induction on the dimensions. -/
theorem along_blocks (shape : Shape) (index : Index)
    : along index (blocks shape) = position shape index := by
  induction shape generalizing index with
  | nil => cases index <;> rfl
  | cons extent inner ih =>
      cases index with
      | nil => rfl
      | cons coordinate rest => rw [blocks, along, ih, position]

end Shape

end LazyTensor
