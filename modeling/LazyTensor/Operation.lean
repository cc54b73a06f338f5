import LazyTensor.Text.Listing
import LazyTensor.Float.Notation
import LazyTensor.Layout

/-! Operations on arrays: what they are called, how many sources they take and which argument
they carry. An operation is a record of what was asked for; whether its sources and argument
fit its kind is checked where it is built or lowered.
-/

namespace LazyTensor

/-- Arrays made from nothing. -/
inductive Fill where
  /-- Zeros. -/
  | empty
  /-- One number everywhere. -/
  | constant
  /-- Uniform draws from a seeded stream. -/
  | random
deriving DecidableEq, Repr

/-- Functions of one element. -/
inductive UnaryMap where
  | neg
  | sin
  | sqrt
  | exp2
  | log2
deriving DecidableEq, Repr

/-- Functions of two elements, and the product of two matrices. -/
inductive BinaryMap where
  | mul
  | add
  | sub
  | div
  | max
  | matmul
deriving DecidableEq, Repr

/-- Folds along a dimension. -/
inductive Reduction where
  | sum
  | max
deriving DecidableEq, Repr

/-- Changes of shape. The first two only change the view; the others move elements. -/
inductive Movement where
  | reshape
  | expand
  | permute
  | pad
deriving DecidableEq, Repr

/-- The kind of an operation. -/
inductive OpKind where
  | fill (op : Fill)
  | unary (op : UnaryMap)
  | binary (op : BinaryMap)
  | reduce (op : Reduction)
  | movement (op : Movement)
deriving DecidableEq, Repr

/-- The short name of a fill. -/
def Fill.name : Fill → String
  | empty => "empty"
  | constant => "const"
  | random => "rand"

namespace OpKind

/-- All kinds. -/
def all : List OpKind :=
  [.fill .empty, .fill .constant, .fill .random,
    .unary .neg, .unary .sin, .unary .sqrt, .unary .exp2, .unary .log2,
    .binary .mul, .binary .add, .binary .sub, .binary .div, .binary .max, .binary .matmul,
    .reduce .sum, .reduce .max,
    .movement .reshape, .movement .expand, .movement .permute, .movement .pad]

/-- The family that a kind belongs to. -/
def family : OpKind → String
  | fill _ => "load"
  | unary _ => "unary"
  | binary _ => "binary"
  | reduce _ => "reduce"
  | movement _ => "movement"

/-- The name of a kind within its family. -/
def name : OpKind → String
  | fill op => op.name
  | unary .neg => "neg"
  | unary .sin => "sin"
  | unary .sqrt => "sqrt"
  | unary .exp2 => "exp2"
  | unary .log2 => "log2"
  | binary .mul => "mul"
  | binary .add => "add"
  | binary .sub => "sub"
  | binary .div => "div"
  | binary .max => "max"
  | binary .matmul => "matmul"
  | reduce .sum => "sum"
  | reduce .max => "max"
  | movement .reshape => "reshape"
  | movement .expand => "expand"
  | movement .permute => "permute"
  | movement .pad => "pad"

/-- How many sources a kind takes. -/
def arity : OpKind → Nat
  | fill _ => 0
  | unary _ | reduce _ | movement _ => 1
  | binary _ => 2

/-- The full name of a kind. -/
def label (kind : OpKind) : String := kind.family ++ "." ++ kind.name

/-- A kind in capitals, the family around the name. -/
def structured (kind : OpKind) : String :=
  let inner :=
    match kind with
    | binary .matmul => "MatMul"
    | other => other.name.capitalize
  kind.family.capitalize ++ "(" ++ inner ++ ")"

/-- The kind with a full name. -/
def ofLabel? (label : String) : Option OpKind := all.find? (·.label == label)

/-- The fill of a kind that is one. -/
def fill? : OpKind → Option Fill
  | fill op => some op
  | _ => none

/-- The function of one element of a kind that is one. -/
def unary? : OpKind → Option UnaryMap
  | unary op => some op
  | _ => none

/-- The function of two elements of a kind that is one. -/
def binary? : OpKind → Option BinaryMap
  | binary op => some op
  | _ => none

/-- The fold of a kind that is one. -/
def reduce? : OpKind → Option Reduction
  | reduce op => some op
  | _ => none

end OpKind

/-- What an operation needs besides its sources. -/
inductive Argument where
  /-- The seed of a stream of draws. -/
  | seed (word : UInt64)
  /-- A number, as the pattern of a wide float. -/
  | value (bits : UInt64)
  /-- The dimension to fold. -/
  | axis (dim : Nat)
  /-- The source dimension behind each dimension. -/
  | order (axes : List Nat)
  /-- Elements to add before and after each dimension. -/
  | padding (pairs : List (Nat × Nat))
deriving DecidableEq, Repr

namespace Argument

/-- An argument as messages write it. -/
def text : Argument → String
  | seed word => "seed=" ++ word.toNat.repr
  | value bits => "value=" ++ Float.Format.binary64.plain bits.toNat
  | axis dim => "axis=" ++ dim.repr
  | order axes => "order=" ++ Text.listing axes
  | padding pairs => "padding=" ++ Text.pairListing pairs

/-- Equality of arguments, numbers compared as numbers: the zeros are equal and what is no
number differs from itself.
-/
def numericEq : Argument → Argument → Bool
  | value left, value right => Float.Format.binary64.numericEq left.toNat right.toNat
  | left, right => left == right

end Argument

/-- A source as its consumer saw it: a node and the layout under which it is read. -/
structure Source where
  node : Nat
  layout : Layout
deriving DecidableEq, Repr

/-- A record of how an array is made. -/
structure Operation where
  kind : OpKind
  sources : List Source
  argument : Option Argument
deriving DecidableEq, Repr

namespace Operation

/-- The seed, for an operation that carries one. -/
def seed? (operation : Operation) : Option UInt64 :=
  match operation.argument with
  | some (.seed seed) => some seed
  | _ => none

/-- The number, for an operation that carries one. -/
def value? (operation : Operation) : Option UInt64 :=
  match operation.argument with
  | some (.value bits) => some bits
  | _ => none

/-- The dimension, for an operation that carries one. -/
def axis? (operation : Operation) : Option Nat :=
  match operation.argument with
  | some (.axis axis) => some axis
  | _ => none

/-- The order of dimensions, for an operation that carries one. -/
def order? (operation : Operation) : Option (List Nat) :=
  match operation.argument with
  | some (.order order) => some order
  | _ => none

/-- The padding, for an operation that carries one. -/
def padding? (operation : Operation) : Option (List (Nat × Nat)) :=
  match operation.argument with
  | some (.padding padding) => some padding
  | _ => none

/-- Equality of operations with numbers compared as numbers. -/
def numericEq (left right : Operation) : Bool :=
  left.kind == right.kind && left.sources == right.sources
    && match left.argument, right.argument with
      | none, none => true
      | some this, some that => this.numericEq that
      | _, _ => false

end Operation

end LazyTensor
