import LazyTensor.Kernel.Spelling
import LazyTensor.Kernel.Writer

/-! Kernels as programs: nests of counted loops around one statement that writes an element of
the output. Every address is linear in the loop counters. A program has one printed form; what
it does to memory is said in `Kernel.Evaluation`.
-/

namespace LazyTensor.Kernel

/-- One summand of an address: a counter, moved by an offset, times a stride. -/
structure Term where
  counter : Nat
  offset : Nat
  stride : Nat
deriving DecidableEq, Repr

/-- A place in an array as a sum of terms. -/
abbrev Address := List Term

/-- Numbers that a statement computes. -/
inductive Expr where
  /-- A constant, as the pattern of a wide float. -/
  | constant (bits : UInt64)
  /-- The draw of a seeded stream at a counter. -/
  | draw (seed : UInt64) (counter : Nat)
  /-- An element of a source. -/
  | read (source : Nat) (address : Address)
  | unary (op : UnaryMap) (operand : Expr)
  | binary (op : BinaryMap) (left right : Expr)
deriving DecidableEq, Repr

/-- Statements of a kernel. Besides the output there is one local sum. -/
inductive Stmt where
  | skip
  | seq (first second : Stmt)
  /-- Runs the body with the counter at 0, 1, ... below the bound. -/
  | loop (counter bound : Nat) (body : Stmt)
  /-- Writes an element of the output. -/
  | store (address : Address) (value : Expr)
  /-- Takes a number into the fold that an element of the output holds. -/
  | fold (op : Reduction) (address : Address) (value : Expr)
  /-- Sets the local sum. -/
  | startSum (value : Expr)
  /-- Adds a product to the local sum. -/
  | addProduct (left right : Expr)
  /-- Writes the local sum to an element of the output. -/
  | storeSum (address : Address)
deriving DecidableEq, Repr

/-- A term's coordinate as it is printed. -/
def Term.coordinate (term : Term) : String :=
  if term.offset = 0 then counterName term.counter
  else "(" ++ counterName term.counter ++ " + " ++ term.offset.repr ++ ")"

/-- An address as it is printed. -/
def Address.text (address : Address) : String :=
  Spelling.index (address.map fun term => (term.coordinate, term.stride))

/-- An element of the output as it is printed. -/
def Address.output (address : Address) : String := "out[" ++ address.text ++ "]"

/-- The draw at a counter, shifted and scaled to `[0, 1)`. -/
def drawText (dtype : DType) (seed : UInt64) (counter : Nat) : String :=
  let word :=
    "kiln_splitmix64(" ++ seed.toNat.repr ++ "ULL, (unsigned long long)" ++ counterName counter
      ++ ")"
  match dtype with
  | .float32 => "(float)(" ++ word ++ " >> 40) * 0x1.0p-24f"
  | .float64 => "(double)(" ++ word ++ " >> 11) * 0x1.0p-53"

/-- An expression as it is printed. -/
def Expr.text (dtype : DType) : Expr → String
  | constant bits => dtype.literal bits
  | draw seed counter => drawText dtype seed counter
  | read source address => "in" ++ source.repr ++ "[" ++ address.text ++ "]"
  | unary op operand => Spelling.unary dtype op (operand.text dtype)
  | binary op left right => Spelling.binary dtype op (left.text dtype) (right.text dtype)

/-- Writes the lines of a statement. -/
def Stmt.write (dtype : DType) : Stmt → Writer → Writer
  | skip, writer => writer
  | seq first second, writer => second.write dtype (first.write dtype writer)
  | loop counter bound body, writer =>
      (body.write dtype (writer.enter counter bound)).closeLoop
  | store address value, writer =>
      writer.line (address.output ++ " = " ++ value.text dtype ++ ";")
  | fold op address value, writer =>
      writer.line (Spelling.accumulate dtype op address.output (value.text dtype))
  | startSum value, writer =>
      writer.line (dtype.cType ++ " acc = " ++ value.text dtype ++ ";")
  | addProduct left right, writer =>
      writer.line ("acc += " ++ left.text dtype ++ " * " ++ right.text dtype ++ ";")
  | storeSum address, writer => writer.line (address.output ++ " = acc;")

/-- The lines of a kernel body. -/
def Stmt.lines (dtype : DType) (body : Stmt) : List String := (body.write dtype .start).lines

end LazyTensor.Kernel
