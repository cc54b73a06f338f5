import LazyTensor.Engine.Executable
import LazyTensor.Engine.Settings
import LazyTensor.Kernel.SourceUnit

/-! Compiled kernels, found by name. A request is served from memory, else from an artifact in
the kernel directory, else by compiling. Several caches may share a directory. Kernels are
never dropped from memory.
-/

namespace LazyTensor

/-- How requests were served. -/
structure CacheCounts where
  /-- From memory. -/
  hits : Nat
  /-- From an artifact on disk. -/
  diskHits : Nat
  /-- By compiling. -/
  compilations : Nat
deriving DecidableEq, Repr

/-- Kernels in memory, with the directory and the toolchain behind them. -/
structure Cache where
  place : String
  recompile : Bool
  toolchain : Toolchain
  /-- Loaded kernels under their names. -/
  kernels : List (String × Executable)
  counts : CacheCounts
  /-- How often the compiler was called. -/
  compilerCalls : Nat
  /-- How often an artifact was opened. -/
  loaderCalls : Nat

/-- A cache with the host that it works on. -/
structure Workshop where
  cache : Cache
  host : Host

/-- Steps on a workshop that may fail and keep what they have done. -/
abbrev Making := ExceptT EngineError (StateM Workshop)

namespace Cache

/-- The cache without kernels. -/
def start (settings : Settings) (toolchain : Toolchain) : Cache where
  place := settings.cacheDir
  recompile := settings.recompile
  toolchain
  kernels := []
  counts := ⟨0, 0, 0⟩
  compilerCalls := 0
  loaderCalls := 0

/-- The kernels in memory. -/
def executables (cache : Cache) : List Executable := cache.kernels.map (·.2)

/-- The number of kernels in memory. -/
def size (cache : Cache) : Nat := cache.kernels.length

/-- The kernel in memory under a name. -/
def find? (cache : Cache) (name : String) : Option Executable := cache.kernels.lookup name

/-- The place of a kernel's source. -/
def sourcePath (cache : Cache) (name : String) : String :=
  Text.joinPath cache.place (sourceFile name)

/-- The place of a kernel's artifact. -/
def artifactPath (cache : Cache) (name : String) : String :=
  Text.joinPath cache.place (artifactFile name)

/-- How the names of the directories start in which kernels are compiled. -/
def scratchStem : String := ".build"

/-- The directory in which a kernel is compiled, as messages write it. -/
def scratch (cache : Cache) : String := Text.joinPath cache.place scratchStem

/-- The place where a file waits while its kernel is compiled, as messages write it. -/
def scratchPath (cache : Cache) (file : String) : String := Text.joinPath cache.scratch file

/-- The cache with its fields spelt out. -/
def description (cache : Cache) : String :=
  "KernelCache \x7b dir: " ++ Text.quoted cache.place ++ ", force_recompile: "
    ++ toString cache.recompile ++ ", toolchain: " ++ Text.quoted cache.toolchain.name
    ++ ", len: " ++ cache.size.repr ++ " \x7d"

end Cache

namespace Workshop

/-- Fails if the file system fails at a step. -/
def checkStep (step : FileStep) (path : String) : Making Unit := do
  let cache := (← get).cache
  match cache.toolchain.fault cache.compilerCalls step with
  | some cause => throw (.fileAccess path cause)
  | none => pure ()

/-- Changes the cache. -/
def changeCache (change : Cache → Cache) : Making Unit :=
  modify fun shop => { shop with cache := change shop.cache }

/-- Changes the disk. -/
def setDisk (disk : Disk KernelFile) : Making Unit :=
  modify fun shop => { shop with host := { shop.host with disk } }

/-- Makes the kernel directory and those above it. -/
def makePlace : Making Unit := do
  let shop ← get
  let place := shop.cache.place
  checkStep .makeDirectory place
  let (made, disk) := (Disk.makeDirectories place).run.run shop.host.disk
  setDisk disk
  match made with
  | .ok () => pure ()
  | .error cause => throw (.fileAccess place cause)

/-- Makes a directory of its own for a compilation. -/
def makeScratch : Making Place := do
  let ⟨cache, host⟩ ← get
  checkStep .makeScratch cache.place
  if let some cause := Disk.pathFault? cache.scratch then
    throw (.fileAccess cache.place (cause.about cache.scratch))
  match host.disk.makeFresh cache.place Cache.scratchStem with
  | .ok (scratch, disk) =>
      setDisk disk
      return scratch
  | .error cause => throw (.fileAccess cache.place (cause.about cache.scratch))

/-- Writes a source aside, where the compiler finds it. -/
def stageSource (scratch : Place) (unit : SourceUnit) : Making Unit := do
  let ⟨cache, host⟩ ← get
  let file := sourceFile unit.name
  let path := cache.scratchPath file
  checkStep .writeSource path
  if let some cause := Disk.pathFault? path then
    throw (.fileAccess path cause)
  unless Disk.fits file do
    throw (.fileAccess path .nameTooLong)
  setDisk (host.disk.add (file :: scratch) (.source unit.source))

/-- Calls the compiler on the text that waits aside under a name. It leaves an artifact beside it, or
it fails, or it leaves nothing and says that it succeeded.
-/
def callCompiler (scratch : Place) (name : String) : Making (Except CompileFailure Unit) := do
  let ⟨cache, host⟩ ← get
  changeCache ({ · with compilerCalls := cache.compilerCalls + 1 })
  let text := host.disk.text (sourceFile name :: scratch)
  match cache.toolchain.compile cache.compilerCalls name text with
  | .ok (some artifact) =>
      setDisk (host.disk.add (artifactFile name :: scratch) (.artifact artifact))
      return .ok ()
  | .ok none => return .ok ()
  | .error failure => return .error failure

/-- Moves a file that was made aside into the kernel directory. -/
def keepFile (step : FileStep) (scratch : Place) (name : String) : Making Unit := do
  let ⟨cache, host⟩ ← get
  let path := Text.joinPath cache.place name
  checkStep step path
  match host.disk.move (name :: scratch) cache.place name with
  | .ok disk => setDisk disk
  | .error cause => throw (.fileAccess path cause)

/-- Compiles a unit aside and then moves source and artifact into the kernel directory. The source
is kept whether or not it compiles.
-/
def compileAside (unit : SourceUnit) (scratch : Place) : Making Unit := do
  stageSource scratch unit
  let compiled ← callCompiler scratch unit.name
  keepFile .keepSource scratch (sourceFile unit.name)
  let cache := (← get).cache
  let file := artifactFile unit.name
  match compiled with
  | .error (.rejected compiler diagnostics) =>
      throw (.compilation compiler (cache.sourcePath unit.name) diagnostics)
  | .error (.notStarted compiler cause) => throw (.notStarted compiler cause)
  | .error (.unwritten cause) => throw (.fileAccess (cache.scratchPath file) cause)
  | .ok () => keepFile .keepArtifact scratch file

/-- Runs a step and then removes a directory with everything in it, however the step ends. -/
def clearing {α : Type} (place : Place) (step : Making α) : Making α := do
  let result ← (ExceptT.lift step.run : Making (Except EngineError α))
  let shop ← get
  setDisk (shop.host.disk.remove place)
  result

/-- Compiles a unit in a directory of its own, which is gone afterwards. -/
def compile (unit : SourceUnit) : Making Unit := do
  makePlace
  let scratch ← makeScratch
  clearing scratch (compileAside unit scratch)

/-- The greatest number of sources that a kernel can be called with. -/
def maximalArity : Nat := 2

/-- Opens the artifact of a unit and looks up its function. A library without the function is
closed again unless other kernels hold it.
-/
def load (unit : SourceUnit) : Making Executable := do
  if maximalArity < unit.arity then
    throw (.unsupportedArity unit.name unit.arity)
  let ⟨cache, host⟩ ← get
  changeCache ({ · with loaderCalls := cache.loaderCalls + 1 })
  match host.library? cache.place (artifactFile unit.name) with
  | none => throw (.unreadableArtifact (cache.artifactPath unit.name))
  | some library =>
      match cache.toolchain.load cache.loaderCalls library.artifact unit.name with
      | .ok code =>
          modify fun shop => { shop with host := host.withOpen library }
          return ⟨unit.name, unit.dtype, unit.arity, code, library.file⟩
      | .error .unreadable => throw (.unreadableArtifact (cache.artifactPath unit.name))
      | .error .missingSymbol => throw (.missingSymbol unit.name)

/-- Counts a request. -/
def count (change : CacheCounts → CacheCounts) : Making Unit :=
  changeCache fun cache => { cache with counts := change cache.counts }

/-- Sees to it that the directory holds an artifact for a unit, compiling it if there is none or
if artifacts of earlier runs do not count.
-/
def provide (unit : SourceUnit) : Making Unit := do
  let ⟨cache, host⟩ ← get
  let present := (host.artifact? cache.place (artifactFile unit.name)).isSome
  if !cache.recompile && present then
    count fun counts => { counts with diskHits := counts.diskHits + 1 }
  else
    compile unit
    count fun counts => { counts with compilations := counts.compilations + 1 }

/-- The kernel of a unit. A kernel in memory is found by name alone. -/
def request (unit : SourceUnit) : Making Executable := do
  match (← get).cache.find? unit.name with
  | some kernel =>
      count fun counts => { counts with hits := counts.hits + 1 }
      return kernel
  | none =>
      provide unit
      let kernel ← load unit
      changeCache fun cache => { cache with kernels := cache.kernels ++ [(unit.name, kernel)] }
      return kernel

end Workshop

end LazyTensor
