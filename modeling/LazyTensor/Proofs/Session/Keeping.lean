import LazyTensor.Proofs.Engine.Arrays
import LazyTensor.Proofs.Layout.Addressing
import LazyTensor.Proofs.Reference.Views
import LazyTensor.Proofs.Session.Reading

/-! Folds that keep their dimension. The fold stores one element for the coordinates that remain, the
kept dimension is one of size one, and expanded again it leads every coordinate to the same element.
So a tensor and the expanded fold of it have one shape, and at every index the fold along the
dimension at the coordinates that remain, whatever view the tensor was and wherever the dimension is.
-/

namespace LazyTensor

-----------------------------------------------------------------------------------------
-- The kept dimension
-----------------------------------------------------------------------------------------

namespace Shape

/-- A coordinate of zero belongs to a dimension of size one. -/
theorem Holds.set_one {shape : Shape} {index : Index} (held : shape.Holds index) (axis : Nat)
    : Holds (shape.set axis 1) (index.set axis 0) := by
  refine holds_of_getElem_lt (by simp [held.length_eq]) ?_
  intro other inIndex inShape
  rw [List.length_set] at inIndex inShape
  rw [List.getElem_set, List.getElem_set]
  split
  · exact Nat.one_pos
  · exact held.getElem_lt inIndex inShape

end Shape

namespace Layout

/-- The layout of a fold that keeps its dimension, expanded to the shape that was folded. -/
def regrown (shape : Shape) (axis : Nat) : Layout :=
  (kept shape axis).push ((kept shape axis).current.expanded shape)

variable {shape : Shape} {axis : Nat}

end Layout

namespace Tensor

variable {id : Nat} {step : Build Buffer} {session : Session} {tensor : Tensor} {axis : Nat}

end Tensor

-----------------------------------------------------------------------------------------
-- Whole runs
-----------------------------------------------------------------------------------------

namespace Workbench

variable {arith : Arithmetic} {bench later : Workbench} {tensor expanded : Tensor} {axis : Nat}
  {op : Reduction}

/-- A session with the graphs and the files of the workbench and an engine. -/
def session (bench : Workbench) (engine : Engine) (seed : UInt64) : Session :=
  ⟨bench.machine engine, seed⟩

/-- What is known of an expanded fold: it is held, and in all later states it shows at every index the
fold of an array at the coordinates that remain.
-/
structure Regrows (arith : Arithmetic) (bench : Workbench) (array : LogicalArray) (op : Reduction)
    (axis : Nat) (tensor expanded : Tensor)
    : Prop where
  held : expanded.buffer ∈ bench.desk.buffers
  fits : tensor.shape.Fits
  inside : axis < tensor.rank
  type : expanded.buffer.dtype = tensor.buffer.dtype
  layout : expanded.buffer.layout = .regrown tensor.shape axis
  value
    : ∀ later, bench.LeadsTo arith later → ∀ index, tensor.shape.Holds index →
        (later.array arith expanded.buffer).value index
          = array.folded arith tensor.buffer.dtype op axis (index.eraseIdx axis)

/-- A shaped read of an expanded fold gives the fold at the coordinates that remain, at all indices in
row-major order.
-/
theorem Regrows.elements_eq {array : LogicalArray}
    (regrows : bench.Regrows arith array op axis tensor expanded)
    (leads : bench.LeadsTo arith later) {storage : Storage}
    (final : later.desk.workspace.finished? expanded.buffer = some storage)
    (small : tensor.shape.volume * tensor.buffer.dtype.bytes < addressRange)
    : (later.desk.workspace.graph expanded.buffer.graph).elements expanded.buffer
          tensor.buffer.dtype
      = .ok
          ((Shape.indices tensor.shape).map fun index =>
            array.folded arith tensor.buffer.dtype op axis (index.eraseIdx axis)) := by
  have shape : expanded.buffer.shape = tensor.shape := by
    rw [Buffer.shape, regrows.layout]
    rfl
  have read := leads.sound.elements_eq (leads.buffers regrows.held) final
  rw [shape, regrows.type] at read
  refine (read small).trans (congrArg Except.ok (List.map_congr_left ?_))
  intro index member
  exact regrows.value later leads index (Shape.mem_indices.mp member)

end Workbench

end LazyTensor
