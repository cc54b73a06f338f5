import LazyTensor.Engine.Toolchain

/-! What the engines of one process share: the disk and the libraries that are open. Opening is
by path first and by file second, so a library that is open is found again under its path even
when another file stands there by now.
-/

namespace LazyTensor

/-- An open library. -/
structure Library where
  /-- The number of its file. -/
  file : Nat
  /-- The paths under which it was opened. -/
  paths : List String
  /-- What the file held when it was opened. -/
  artifact : Artifact
deriving DecidableEq, Repr

/-- A disk and the libraries that are open, each file open at most once. -/
structure Host where
  disk : Disk KernelFile
  libraries : List Library

namespace Host

/-- A host with an empty disk. -/
def start : Host := ⟨.empty, []⟩

/-- What a loader finds in the file of a name in a directory, with the file's number. -/
def artifact? (host : Host) (directory name : String) : Option (Nat × Artifact) := do
  let (number, file) ← host.disk.find? directory name
  return (number, file.opened)

/-- The library that opening a file of a directory gives, if the file is found. A path that is
replaced leads nowhere.
-/
def library? (host : Host) (directory name : String) : Option Library :=
  let path := Text.joinPath directory name
  match host.libraries.find? (·.paths.contains path) with
  | some library => some library
  | none => do
      guard !(Text.isReplaced path)
      let (number, content) ← host.artifact? directory name
      match host.libraries.find? (·.file == number) with
      | some library => return { library with paths := path :: library.paths }
      | none => return ⟨number, [path], content⟩

/-- The host with a library open. -/
def withOpen (host : Host) (library : Library) : Host :=
  { host with libraries := library :: host.libraries.filter (·.file != library.file) }

/-- The host with only those libraries open whose file is in use. -/
def closeUnused (host : Host) (inUse : Nat → Bool) : Host :=
  { host with libraries := host.libraries.filter (inUse ·.file) }

end Host

end LazyTensor
