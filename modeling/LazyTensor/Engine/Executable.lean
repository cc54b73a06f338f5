import LazyTensor.Engine.Host
import LazyTensor.Text.Quoted

/-! Kernels that have been loaded. A kernel can run for as long as the library that it was found
in stays open.
-/

namespace LazyTensor

/-- A kernel that has been loaded. Name, element type and arity are those that were asked for;
the code is what the library holds.
-/
structure Executable where
  name : String
  dtype : DType
  arity : Nat
  code : Kernel.Routine
  /-- The file of the library that the code belongs to. -/
  library : Nat
deriving DecidableEq, Repr

namespace Executable

/-- The kernel with its fields spelt out. -/
def description (kernel : Executable) : String :=
  "LoadedKernel \x7b key: KernelKey(" ++ Text.quoted kernel.name ++ "), dtype: "
    ++ kernel.dtype.label ++ ", arity: " ++ kernel.arity.repr ++ " \x7d"

/-- Runs a kernel over an output and its sources and gives the new output. -/
def invoke (kernel : Executable) (arith : Arithmetic) (out : Storage) (sources : List Storage) :
    Except EngineError Storage :=
  if sources.length = kernel.arity then
    match (out :: sources).find? (·.dtype != kernel.dtype) with
    | some storage => .error (.dtypeMismatch kernel.name kernel.dtype storage.dtype)
    | none =>
        .ok { out with cells := kernel.code.apply arith out.cells (sources.map Storage.cells) }
  else
    .error (.arityMismatch kernel.name kernel.arity sources.length)

end Executable

/-- The host after all kernels but the given ones are gone. A library closes with its last
kernel.
-/
def Host.retain (host : Host) (kernels : List Executable) : Host :=
  host.closeUnused fun file => kernels.any (·.library == file)

end LazyTensor
