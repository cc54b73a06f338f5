import LazyTensor.Engine.Error
import LazyTensor.Kernel.Reading

/-! Compilers and the files that they leave behind. A toolchain turns a text into an artifact and
opens artifacts again; each answer may depend on how many calls came before, so a toolchain can fail
at any call. The simulated ones fail in one way each.
-/

namespace LazyTensor

open Kernel

/-- A compiled file: a library with the functions that it defines, or something that is none. -/
inductive Artifact where
  | library (routines : List Routine)
  | unreadable
deriving DecidableEq, Repr

/-- A file of a kernel directory. -/
inductive KernelFile where
  | source (text : String)
  | artifact (content : Artifact)
deriving DecidableEq, Repr

/-- What a loader finds in a file. A text is no library. -/
def KernelFile.opened : KernelFile → Artifact
  | source _ => .unreadable
  | artifact content => content

/-- What a compiler finds in a file. A library is no text. -/
def KernelFile.text : KernelFile → String
  | source text => text
  | artifact _ => ""

/-- The text that stands at a place, nothing if there is no file. -/
def Disk.text (disk : Disk KernelFile) (place : Place) : String :=
  match disk.standing? place with
  | some (.file _ content) => content.text
  | _ => ""

/-- The name of a kernel's source file. -/
def sourceFile (name : String) : String := name ++ ".c"

/-- The name of a kernel's compiled file. -/
def artifactFile (name : String) : String := name ++ ".so"

/-- Why a compiler left nothing. -/
inductive CompileFailure where
  /-- It rejected the source. -/
  | rejected (compiler : String) (diagnostics : Option String)
  /-- It could not be started. -/
  | notStarted (compiler : String) (cause : OsError)
  /-- It could not write its file. -/
  | unwritten (cause : OsError)
deriving DecidableEq, Repr

/-- Why an artifact could not be opened. -/
inductive LoadFailure where
  | unreadable
  | missingSymbol
deriving DecidableEq, Repr

/-- The steps of a compilation at which the file system can fail. -/
inductive FileStep where
  | makeDirectory
  | makeScratch
  | writeSource
  | keepSource
  | keepArtifact
deriving DecidableEq, Repr

/-- A compiler, a loader and a file system. The first argument of each answer counts the calls of
that kind that came before.
-/
structure Toolchain where
  name : String
  /-- What a compilation leaves under a name for a text. A compiler may report success and leave no
  file.
  -/
  compile : Nat → (name text : String) → Except CompileFailure (Option Artifact)
  /-- The function that an artifact offers under a name. -/
  load : Nat → Artifact → String → Except LoadFailure Routine
  /-- Whether a step of a compilation fails. -/
  fault : Nat → FileStep → Option OsError

/-- Looks a function up in an artifact. -/
def Artifact.open (artifact : Artifact) (name : String) : Except LoadFailure Routine :=
  match artifact with
  | unreadable => .error .unreadable
  | library routines =>
      match routines.find? (·.name == name) with
      | some routine => .ok routine
      | none => .error .missingSymbol

namespace Toolchain

/-- The ways in which a simulated compiler behaves. -/
inductive Mode where
  /-- Compiles every text. -/
  | working
  /-- Cannot be started. -/
  | missing
  /-- Rejects every text with words of its own. -/
  | rejecting
  /-- Rejects every text in the words of a real compiler. -/
  | broken
  /-- Leaves a library without functions. -/
  | withoutSymbol
  /-- Leaves a file that is no library. -/
  | garbage
  /-- Leaves no file. -/
  | silent
deriving DecidableEq, Repr

/-- The mode of a name. -/
def Mode.ofName? : String → Option Mode
  | "cc" => some working
  | "missing" => some missing
  | "reject" => some rejecting
  | "broken" => some broken
  | "nosymbol" => some withoutSymbol
  | "garbage" => some garbage
  | "silent" => some silent
  | _ => none

/-- The function of a name that a text is compiled to. A text that is not the one of a kernel gives
a function that does nothing.
-/
def compiled (name text : String) : Routine :=
  let routine := (Routine.read text).getD ⟨name, .float32, 0, .skip⟩
  { routine with name }

/-- What a compiler of some mode leaves. A file whose name does not fit cannot be written; a real
compiler puts that into words of its own.
-/
def Mode.answer (mode : Mode) (compiler name text : String) :
    Except CompileFailure (Option Artifact) :=
  let fits := Disk.fits (artifactFile name)
  match mode with
  | working =>
      if fits then .ok (some (.library [compiled name text])) else .error (.rejected compiler none)
  | missing => .error (.notStarted "kiln-no-such-compiler" .notFound)
  | rejecting => .error (.rejected compiler (some "error: rejected\n"))
  | broken => .error (.rejected compiler none)
  | withoutSymbol => if fits then .ok (some (.library [])) else .error (.rejected compiler none)
  | garbage => if fits then .ok (some .unreadable) else .error (.unwritten .nameTooLong)
  | silent => .ok none

/-- A compiler that rejects the first calls and then behaves as its mode says. -/
def simulated (name : String) (mode : Mode) (failFirst : Nat) : Toolchain where
  name
  compile call unit text :=
    if call < failFirst then Mode.rejecting.answer name unit text
    else mode.answer name unit text
  load _ artifact := artifact.open
  fault _ _ := none

end Toolchain

end LazyTensor
