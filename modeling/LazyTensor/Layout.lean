import LazyTensor.Shape

/-! Views of stored arrays. A view has a logical shape and, for each dimension, a broadcast
factor: a factor of one is backed by storage, a greater one re-reads a stored dimension of size
one. A layout is the current view together with the views that led to it. Reshaping and
expanding append a view and move no data.
-/

namespace LazyTensor

/-- A logical shape and the broadcast factor of each dimension. -/
structure View where
  shape : Shape
  factors : List Nat
deriving DecidableEq, Repr

namespace View

/-- The view that reads every stored element once. -/
def dense (shape : Shape) : View := ⟨shape, List.replicate shape.length 1⟩

/-- The shape of the storage behind a view. -/
def physicalShape (view : View) : Shape := view.shape.zipWith (· / ·) view.factors

/-- How many stored elements stand behind a view. -/
def physicalSize (view : View) : Nat := Shape.size view.physicalShape

/-- How many elements a view shows. -/
def logicalSize (view : View) : Nat := Shape.size view.shape

/-- The distance in storage between neighbours along each dimension, zero where the view
re-reads.
-/
def strides (view : View) : List Nat :=
  (Shape.strides view.physicalShape).zipWith
    (fun stride factor => if 1 < factor then 0 else stride) view.factors

/-- Whether no dimension is broadcast. -/
def isContiguous (view : View) : Bool := view.factors.all (· == 1)

/-- Dimensions of size one around a view. -/
def withUnits (view : View) (leading trailing : Nat) : View :=
  let around (dims : List Nat) : List Nat :=
    List.replicate leading 1 ++ dims ++ List.replicate trailing 1
  ⟨around view.shape, around view.factors⟩

/-- Whether a view can be broadcast to a shape: dimensions agree or grow from one. -/
def expandsTo (view : View) (shape : Shape) : Bool :=
  shape.length == view.shape.length
    && (view.shape.zip shape).all fun (current, new) => current == new || current == 1

/-- The view broadcast to a shape that it expands to. -/
def expanded (view : View) (shape : Shape) : View :=
  let growth := view.shape.zipWith (fun current new => new / current) shape
  ⟨shape, growth.zipWith (· * ·) view.factors⟩

end View

/-- A view and its history, newest first. -/
structure Layout where
  current : View
  past : List View
deriving DecidableEq, Repr

namespace Layout

/-- Why a view change was refused. -/
inductive Error where
  | invalidShape (shape : Shape)
  | cannotReshape (stored requested : Shape)
  | cannotExpand (current requested : Shape)
deriving DecidableEq, Repr

/-- The layout of a dense array. The shape is taken as it is. -/
def dense (shape : Shape) : Layout := ⟨.dense shape, []⟩

/-- All views, oldest first. -/
def views (layout : Layout) : List View := layout.past.reverse ++ [layout.current]

/-- The logical shape. -/
def shape (layout : Layout) : Shape := layout.current.shape

/-- The broadcast factors. -/
def factors (layout : Layout) : List Nat := layout.current.factors

/-- The number of dimensions. -/
def rank (layout : Layout) : Nat := layout.shape.length

/-- The shape of the storage behind the current view. -/
def physicalShape (layout : Layout) : Shape := layout.current.physicalShape

/-- How many stored elements stand behind the current view. -/
def physicalSize (layout : Layout) : Nat := layout.current.physicalSize

/-- How many elements the current view shows. -/
def logicalSize (layout : Layout) : Nat := layout.current.logicalSize

/-- The strides of the current view into storage. -/
def strides (layout : Layout) : List Nat := layout.current.strides

/-- Whether no dimension of the current view is broadcast. -/
def isContiguous (layout : Layout) : Bool := layout.current.isContiguous

/-- The layout with one more view. -/
def push (layout : Layout) (view : View) : Layout := ⟨view, layout.current :: layout.past⟩

/-- Changes of a layout in place that may be refused. -/
abbrev Change := ExceptT Error (StateM Layout)

namespace Change

/-- Refuses unless a condition holds. -/
def require (condition : Bool) (error : Error) : Change Unit :=
  if condition then pure () else throw error

/-- Reads the stored elements under another shape with as many of them. -/
def reshape (shape : Shape) : Change Unit := do
  require shape.isValid (.invalidShape shape)
  let layout ← get
  require (shape.size == layout.physicalSize) (.cannotReshape layout.physicalShape shape)
  set (layout.push (.dense shape))

/-- Broadcasts dimensions of size one up to a shape. -/
def expand (shape : Shape) : Change Unit := do
  require shape.isValid (.invalidShape shape)
  let layout ← get
  require (layout.current.expandsTo shape) (.cannotExpand layout.shape shape)
  set (layout.push (layout.current.expanded shape))

end Change

/-- The layout after a change, unless the change is refused. The layout itself stays what it is. -/
def changed (layout : Layout) (change : Change Unit) : Except Error Layout :=
  match change.run.run layout with
  | (.ok (), next) => .ok next
  | (.error cause, _) => .error cause

/-- The stored elements under another shape with as many of them. -/
def reshape (layout : Layout) (shape : Shape) : Except Error Layout :=
  layout.changed (.reshape shape)

/-- Puts dimensions of size one around the current view and keeps its broadcast factors. -/
def insertUnits (layout : Layout) (leading trailing : Nat) : Layout :=
  layout.push (layout.current.withUnits leading trailing)

/-- The greatest number of dimensions that a view can be built with. -/
def rankLimit : Nat := 1 <<< 59

/-- As `insertUnits`, unless there would be too many dimensions. -/
def insertUnits? (layout : Layout) (leading trailing : Nat) : Option Layout :=
  if leading + layout.rank + trailing ≤ rankLimit then some (layout.insertUnits leading trailing)
  else none

/-- The dimensions of size one broadcast up to a shape. -/
def expand (layout : Layout) (shape : Shape) : Except Error Layout :=
  layout.changed (.expand shape)

end Layout

end LazyTensor
