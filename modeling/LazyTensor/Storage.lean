import LazyTensor.Element
import LazyTensor.Shape

/-! Flat host memory of one element type. Memory is zeroed when it is taken and can only be
overwritten as a whole. Whether there is memory is up to the host.
-/

namespace LazyTensor

/-- Memory for elements of one type. -/
structure Storage where
  dtype : DType
  cells : Array Pattern
deriving DecidableEq, Repr

namespace Storage

/-- Why memory could not be taken. -/
inductive AllocationFailure where
  | sizeOverflow
  | capacityOverflow
  | outOfMemory
deriving DecidableEq, Repr

/-- What a message says about a failed allocation. -/
def AllocationFailure.reason : AllocationFailure → String
  | sizeOverflow => "size overflows usize"
  | capacityOverflow =>
      "memory allocation failed because the computed capacity exceeded the collection's maximum"
  | outOfMemory => "memory allocation failed because the memory allocator returned an error"

/-- What can go wrong with storage. -/
inductive Error where
  | allocation (dtype : DType) (size : Nat) (failure : AllocationFailure)
  | dtypeMismatch (expected actual : DType)
  | sizeMismatch (expected actual : Nat)
deriving DecidableEq, Repr

/-- The text of an error. -/
def Error.message : Error → String
  | allocation dtype size failure =>
      "failed to allocate " ++ size.repr ++ " elements of " ++ dtype.label ++ " ("
        ++ failure.reason ++ ")"
  | dtypeMismatch expected actual =>
      "dtype mismatch: storage holds " ++ actual.label ++ ", requested " ++ expected.label
  | sizeMismatch expected actual =>
      "size mismatch: expected " ++ expected.repr ++ " elements, got " ++ actual.repr

/-- Whether a simulated host gives a number of bytes in one piece. -/
def simulatedMemory (bytes : Nat) : Bool := bytes < 1 <<< 60

/-- Why `size` elements cannot be had, if so, from a host that gives some numbers of bytes and refuses
others. Memory comes in words of eight bytes.
-/
def allocationFailure? (dtype : DType) (size : Nat) (gives : Nat → Bool) : Option AllocationFailure :=
  match checkedMul size dtype.bytes with
  | none => some .sizeOverflow
  | some bytes =>
      let rounded := 8 * ((bytes + 7) / 8)
      if 1 <<< 63 ≤ rounded then some .capacityOverflow
      else if gives rounded then none
      else some .outOfMemory

/-- Zeroed memory for `size` elements. -/
def allocate (dtype : DType) (size : Nat) (gives : Nat → Bool := simulatedMemory)
    : Except Error Storage :=
  match allocationFailure? dtype size gives with
  | some failure => .error (.allocation dtype size failure)
  | none => .ok ⟨dtype, Array.replicate size 0⟩

/-- The number of elements. -/
def size (storage : Storage) : Nat := storage.cells.size

/-- Whether there is no element. -/
def isEmpty (storage : Storage) : Bool := storage.size == 0

/-- The bytes that the elements take. -/
def bytes (storage : Storage) : Nat := storage.size * storage.dtype.bytes

/-- The elements, for a reader of the right type. -/
def read (storage : Storage) (dtype : DType) : Except Error (Array Pattern) :=
  if dtype = storage.dtype then .ok storage.cells
  else .error (.dtypeMismatch dtype storage.dtype)

/-- Overwrites all elements with as many others. -/
def overwrite (storage : Storage) (dtype : DType) (data : Array Pattern) : Except Error Storage :=
  if dtype = storage.dtype then
    if data.size = storage.size then .ok ⟨dtype, data⟩
    else .error (.sizeMismatch storage.size data.size)
  else
    .error (.dtypeMismatch dtype storage.dtype)

/-- Memory that holds a copy of `data`. -/
def ofArray (dtype : DType) (data : Array Pattern) (gives : Nat → Bool := simulatedMemory)
    : Except Error Storage := do
  let storage ← allocate dtype data.size gives
  storage.overwrite dtype data

end Storage

end LazyTensor
