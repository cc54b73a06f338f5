import LazyTensor.Engine.Disk
import LazyTensor.Kernel.Lowering

/-! What can go wrong when kernels are compiled, loaded and run. The wording of a real compiler
and of the dynamic loader belongs to the host, so errors that consist of it have no text here.
-/

namespace LazyTensor

/-- Why an engine gave up. -/
inductive EngineError where
  | render (cause : RenderError)
  | schedule (cause : ScheduleError)
  | graph (cause : GraphError)
  /-- The compiler rejected a source. The diagnostics of a real compiler are the host's. -/
  | compilation (compiler path : String) (diagnostics : Option String)
  /-- The compiler could not be started. -/
  | notStarted (compiler : String) (cause : OsError)
  | fileAccess (path : String) (cause : OsError)
  /-- The artifact is no library. -/
  | unreadableArtifact (path : String)
  /-- The library lacks the function. -/
  | missingSymbol (name : String)
  | unsupportedArity (name : String) (arity : Nat)
  | arityMismatch (name : String) (expected actual : Nat)
  | dtypeMismatch (name : String) (expected actual : DType)
  | sourceNotComputed (name : String) (node : Nat)
deriving DecidableEq, Repr

/-- A kernel's name in a message. -/
def kernelLabel (name : String) : String := "kernel '" ++ name ++ "'"

/-- The text of an error, unless the host words it or there is none. -/
def EngineError.message : EngineError → Option String
  | render cause => cause.message.map ("codegen error: " ++ ·)
  | schedule cause => some ("schedule error: " ++ cause.message)
  | graph cause => some ("graph error: " ++ cause.message)
  | compilation compiler path diagnostics =>
      diagnostics.map fun text => compiler ++ " failed to compile " ++ path ++ ":\n" ++ text
  | notStarted compiler cause => some ("failed to run " ++ compiler ++ ": " ++ cause.text)
  | fileAccess path cause => some ("I/O error at " ++ path ++ ": " ++ cause.text)
  | unreadableArtifact _ => none
  | missingSymbol _ => none
  | unsupportedArity name arity =>
      some (kernelLabel name ++ " takes " ++ arity.repr ++ " sources, at most 2 are supported")
  | arityMismatch name expected actual =>
      some (kernelLabel name ++ " expects " ++ expected.repr ++ " sources, got " ++ actual.repr)
  | dtypeMismatch name expected actual =>
      some (kernelLabel name ++ " is compiled for " ++ expected.label ++ ", got " ++ actual.label
        ++ " storage")
  | sourceNotComputed name node =>
      some (kernelLabel name ++ " reads " ++ nodeName node ++ " before it is computed")

end LazyTensor
