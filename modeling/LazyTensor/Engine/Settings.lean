import LazyTensor.Text.Path
import LazyTensor.Text.Quoted

/-! Settings of an engine, given one by one or read from the environment. What is not given gets
a default, and the defaults depend on the environment: a compiler that is found on the search
path is preferred, and kernels are kept below the temporary directory.
-/

namespace LazyTensor

/-- A directory of the search path and the names of what lies in it. -/
structure SearchDirectory where
  files : List String
  directories : List String
deriving DecidableEq, Repr

/-- The variables that are set, and the search path. -/
structure Environment where
  bindings : List (String × String)
  searchPath : List SearchDirectory
deriving DecidableEq, Repr

namespace Environment

/-- The value of a variable that is set. -/
def get? (env : Environment) (name : String) : Option String := env.bindings.lookup name

/-- The value of a variable that is set and not empty. -/
def nonempty? (env : Environment) (name : String) : Option String :=
  (env.get? name).filter (· ≠ "")

/-- Whether a program lies on the search path. -/
def hasProgram (env : Environment) (program : String) : Bool :=
  env.searchPath.any (·.files.contains program)

/-- The directory for temporary files. -/
def temporary (env : Environment) : String := (env.get? "TMPDIR").getD "/tmp"

end Environment

/-- How kernels are compiled and where they are kept. -/
structure Settings where
  compiler : String
  /-- The optimisation flag. -/
  optimization : String
  /-- Where sources and artifacts of kernels are kept. -/
  cacheDir : String
  /-- Whether artifacts of earlier runs are compiled again. -/
  recompile : Bool
deriving DecidableEq, Repr

/-- Settings that are given, the others absent. -/
structure Settings.Choices where
  compiler : Option String
  optimization : Option String
  cacheDir : Option String
  recompile : Option Bool
deriving DecidableEq, Repr

namespace Settings

/-- The optimisation flag that is used unless another is given. -/
def defaultOptimization : String := "-O2"

/-- The compiler that is used unless another is given. -/
def defaultCompiler (env : Environment) : String :=
  if env.hasProgram "clang" then "clang" else "cc"

/-- The place for kernels unless another is given. -/
def defaultCacheDir (env : Environment) : String :=
  Text.joinPath env.temporary "kiln-kernels"

/-- The given settings, with defaults for the others. -/
def build (env : Environment) (choices : Choices) : Settings where
  compiler := choices.compiler.getD (defaultCompiler env)
  optimization := choices.optimization.getD defaultOptimization
  cacheDir := choices.cacheDir.getD (defaultCacheDir env)
  recompile := choices.recompile.getD false

/-- All defaults. -/
def default (env : Environment) : Settings := build env ⟨none, none, none, none⟩

/-- The settings that the environment asks for. A compiler or flag that is set to nothing counts
as absent; the place for kernels may be empty, and recompilation is asked for by any value.
-/
def ofEnvironment (env : Environment) : Settings :=
  build env {
    compiler := env.nonempty? "KILN_CC"
    optimization := env.nonempty? "KILN_OPT"
    cacheDir := env.get? "KILN_CACHE_DIR"
    recompile := some (env.get? "KILN_RECOMPILE").isSome
  }

/-- Whether two settings agree, places compared part by part. -/
def agree (left right : Settings) : Bool :=
  left.compiler == right.compiler && left.optimization == right.optimization
    && Text.samePath left.cacheDir right.cacheDir && left.recompile == right.recompile

/-- The settings with their fields spelt out. -/
def description (settings : Settings) : String :=
  "RuntimeConfig \x7b compiler: " ++ Text.quoted settings.compiler ++ ", opt_level: "
    ++ Text.quoted settings.optimization ++ ", cache_dir: " ++ Text.quoted settings.cacheDir
    ++ ", force_recompile: " ++ toString settings.recompile ++ " \x7d"

end Settings

end LazyTensor
