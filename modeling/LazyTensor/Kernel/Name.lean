import LazyTensor.Schedule

/-! Names of kernels. A name lists the operation, the element type, the shape of a fill, the
shape and broadcast factors of each source, and the argument, a constant down to its bits. It
is the file name and the C function name of the kernel, so equal names must stand for
interchangeable kernels.
-/

namespace LazyTensor

namespace Kernel

/-- A shape within a name. A scalar is written `s`. -/
def dimsPart (shape : Shape) : String :=
  "_" ++ (if shape.isEmpty then "s" else Text.joined "x" shape)

/-- A source within a name. -/
def sourcePart (layout : Layout) : String :=
  dimsPart layout.shape ++ "_f" ++ Text.joined "x" layout.factors

/-- An argument within a name. -/
def argumentPart : Option Argument → String
  | none => ""
  | some (.seed word) => "_seed" ++ word.toNat.repr
  | some (.value bits) => "_v" ++ Text.hexadecimal 16 bits.toNat
  | some (.axis dim) => "_d" ++ dim.repr
  | some (.order axes) => "_p" ++ Text.joined "_" axes
  | some (.padding pairs) =>
      "_pad" ++ Text.joined "_" (pairs.flatMap fun (before, after) => [before, after])

end Kernel

/-- The name of a task's kernel. -/
def Task.kernelName (task : Task) : String :=
  let head := task.kind.family ++ "_" ++ task.kind.name ++ "_" ++ task.target.dtype.tag
  let dims :=
    match task.kind with
    | .fill _ => Kernel.dimsPart task.target.shape
    | _ => ""
  let sources := String.join (task.sources.map fun source => Kernel.sourcePart source.layout)
  head ++ dims ++ sources ++ Kernel.argumentPart task.operation.argument

end LazyTensor
