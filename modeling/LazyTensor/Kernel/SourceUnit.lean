import LazyTensor.Kernel.Lowering
import LazyTensor.Kernel.Name

/-! Rendered kernels: one C source unit for a task.
-/

namespace LazyTensor

/-- A kernel ready to be compiled. -/
structure SourceUnit where
  /-- The name of the kernel and of the function that the unit defines. -/
  name : String
  /-- The C text. -/
  source : String
  /-- How many source pointers follow the output pointer. -/
  arity : Nat
  /-- The element type of all pointers. -/
  dtype : DType
deriving DecidableEq, Repr

namespace Kernel

/-- The generator that kernels of random fills carry along. -/
def generatorText : List String :=
  ["static inline unsigned long long kiln_splitmix64(unsigned long long seed, unsigned long long i) \x7b",
    "  unsigned long long z = seed + (i + 1ULL) * 0x9E3779B97F4A7C15ULL;",
    "  z = (z ^ (z >> 30)) * 0xBF58476D1CE4E5B9ULL;",
    "  z = (z ^ (z >> 27)) * 0x94D049BB133111EBULL;",
    "  return z ^ (z >> 31);",
    "\x7d"]

/-- The parameters of a kernel: the output, then the sources. -/
def parameters (dtype : DType) (arity : Nat) : List String :=
  (dtype.cType ++ "* restrict out")
    :: (List.range arity).map fun source =>
      "const " ++ dtype.cType ++ "* restrict in" ++ source.repr

/-- The line that opens a kernel. -/
def signature (name : String) (dtype : DType) (arity : Nat) : String :=
  "void " ++ name ++ "(" ++ ", ".intercalate (parameters dtype arity) ++ ") \x7b"

/-- What stands in front of a kernel. -/
def preamble (kind : OpKind) : List String :=
  ["#include <math.h>", ""]
    ++ (if kind = .fill .random then generatorText ++ [""] else [])

end Kernel

/-- The source unit of a task. -/
def Task.render (task : Task) : Except RenderError SourceUnit := do
  let program ← task.lower
  let dtype := task.target.dtype
  let arity := task.sources.length
  let name := task.kernelName
  let lines :=
    Kernel.preamble task.kind ++ Kernel.signature name dtype arity :: program.lines dtype
      ++ ["\x7d", ""]
  return { name, source := "\n".intercalate lines, arity, dtype }

end LazyTensor
