/-! Shapes of arrays and row-major arithmetic on them. Sizes live in 64-bit words: a shape is
usable when its dimensions are positive and their product fits in a word, and for such a shape
no product below wraps around.
-/

namespace LazyTensor

/-- The sizes of the dimensions, outermost first. A scalar has none. -/
abbrev Shape := List Nat

/-- How many values a size can take. -/
def wordRange : Nat := 1 <<< 64

/-- A sum that fits in a word. -/
def checkedAdd (left right : Nat) : Option Nat :=
  if left + right < wordRange then some (left + right) else none

/-- A product that fits in a word. -/
def checkedMul (left right : Nat) : Option Nat :=
  if left * right < wordRange then some (left * right) else none

namespace Shape

/-- The number of elements, if all dimensions are positive and no partial product leaves the
range of a word.
-/
def checkedSize (shape : Shape) : Option Nat :=
  shape.foldlM (fun size extent => if 0 < extent then checkedMul size extent else none) 1

/-- Whether a shape can be used. -/
def isValid (shape : Shape) : Bool := (checkedSize shape).isSome

/-- The number of elements as a word, one for a scalar. -/
def size (shape : Shape) : Nat :=
  shape.foldl (fun size extent => size * extent % wordRange) 1

/-- The product of the dimensions, however large. -/
def volume (shape : Shape) : Nat := shape.foldr (· * ·) 1

/-- A number taken into a size up front is a factor of it. -/
theorem foldl_size (shape : Shape) (factor start : Nat) :
    shape.foldl (fun size extent => size * extent % wordRange) (start * factor % wordRange)
      = shape.foldl (fun size extent => size * extent % wordRange) start * factor
        % wordRange := by
  induction shape generalizing start with
  | nil => rfl
  | cons extent inner ih =>
      have swapped : start * factor % wordRange * extent % wordRange
          = start * extent % wordRange * factor % wordRange := by
        rw [Nat.mod_mul_mod, Nat.mod_mul_mod, Nat.mul_right_comm]
      rw [List.foldl_cons, List.foldl_cons, swapped, ih]

/-- The outermost dimension is a factor of the size. -/
theorem size_cons (extent : Nat) (inner : Shape) :
    size (extent :: inner) = size inner * extent % wordRange := by
  exact foldl_size inner extent 1

/-- The number of elements and the strides, from the innermost dimension outwards. -/
def sizeAndStrides (shape : Shape) : Nat × List Nat :=
  shape.foldr
    (fun extent (inner, steps) => (inner * extent % wordRange, inner :: steps)) (1, [])

/-- Row-major strides: a step along a dimension passes over one block of the inner dimensions. -/
def strides (shape : Shape) : List Nat := (sizeAndStrides shape).2

/-- The number that goes with the strides is the size. -/
theorem sizeAndStrides_fst (shape : Shape) : (sizeAndStrides shape).1 = size shape := by
  induction shape with
  | nil => rfl
  | cons extent inner ih => rw [size_cons, ← ih]; rfl

/-- A scalar has no strides. -/
theorem strides_nil : strides [] = [] := rfl

/-- The stride of a dimension is the size of the block within. -/
theorem strides_cons (extent : Nat) (inner : Shape) :
    strides (extent :: inner) = size inner :: strides inner := by
  rw [← sizeAndStrides_fst]; rfl

/-- The shape without the dimension `axis`. -/
def dropAxis (shape : Shape) (axis : Nat) : Shape := shape.eraseIdx axis

end Shape

/-- Whether every entry is a position that `seen` has and that was not met before. -/
def meetsOnce : List Nat → Array Bool → Bool
  | [], _ => true
  | axis :: rest, seen =>
      if h : axis < seen.size then
        !seen[axis] && meetsOnce rest (seen.set axis true)
      else
        false

/-- Whether `order` lists each of the axes below `rank` once. -/
def isPermutation (order : List Nat) (rank : Nat) : Bool :=
  order.length == rank && meetsOnce order (Array.replicate rank false)

end LazyTensor
