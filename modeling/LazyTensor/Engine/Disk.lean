import LazyTensor.Text.Path
import LazyTensor.Text.Quoted

/-! A tree of directories and files. Paths are read name by name from the top, and two dots lead
back to the directory above. A file gets a number of its own each time it is written, so it can
be told from the file that stood under its name before. A file that is moved keeps its number.
-/

namespace LazyTensor

/-- A failed call of the operating system, by its text. -/
structure OsError where
  text : String
deriving DecidableEq, Repr

namespace OsError

/-- There is no such file. -/
def notFound : OsError := ⟨"No such file or directory (os error 2)"⟩

/-- A directory was to be made where a file stands. -/
def occupied : OsError := ⟨"File exists (os error 17)"⟩

/-- A path leads through a file. -/
def notDirectory : OsError := ⟨"Not a directory (os error 20)"⟩

/-- A file was to be put where a directory stands. -/
def isDirectory : OsError := ⟨"Is a directory (os error 21)"⟩

/-- A name or a path passes the limit. -/
def nameTooLong : OsError := ⟨"File name too long (os error 36)"⟩

/-- A path with a zero byte names nothing. -/
def zeroByte : OsError := ⟨"file name contained an unexpected NUL byte"⟩

/-- A failed call together with the path that it was about. -/
def about (error : OsError) (path : String) : OsError :=
  ⟨error.text ++ " at path " ++ Text.quoted path⟩

end OsError

/-- The names that lead to an entry of a disk, the innermost first. -/
abbrev Place := List String

/-- What stands at a place. -/
inductive Entry (α : Type) where
  | directory
  | file (number : Nat) (content : α)
deriving DecidableEq, Repr

/-- Directories and files with contents of some type. The top is always there. -/
structure Disk (α : Type) where
  entries : List (Place × Entry α)
  /-- How many files have been written so far. -/
  written : Nat
deriving DecidableEq, Repr

namespace Disk

variable {α : Type}

/-- The disk without entries. -/
def empty : Disk α := ⟨[], 0⟩

/-- The bytes that the name of an entry may take. -/
def nameLimit : Nat := 255

/-- The bytes that a path may take. -/
def pathLimit : Nat := 4095

/-- Whether a name may stand on a disk. -/
def fits (name : String) : Bool := name.utf8ByteSize ≤ nameLimit

/-- What is wrong with a path whatever the disk holds, if anything is. -/
def pathFault? (path : String) : Option OsError :=
  if '\x00' ∈ path.toList then some .zeroByte
  else if pathLimit < path.utf8ByteSize then some .nameTooLong
  else none

/-- What stands at a place. -/
def standing? (disk : Disk α) (place : Place) : Option (Entry α) :=
  if place.isEmpty then some .directory else disk.entries.lookup place

/-- The disk with an entry at a place, in place of another one there. -/
def insert (disk : Disk α) (place : Place) (entry : Entry α) : Disk α :=
  { disk with entries := (place, entry) :: disk.entries.filter (·.1 != place) }

/-- The directory that a name leads to from another one. A dot leads nowhere else. -/
def enter (disk : Disk α) (place : Place) (name : String) : Except OsError Place :=
  if name = "." then .ok place
  else if name = ".." then .ok place.tail
  else if fits name then
    match disk.standing? (name :: place) with
    | some .directory => .ok (name :: place)
    | some (.file ..) => .error .notDirectory
    | none => .error .notFound
  else .error .nameTooLong

/-- The place of a directory. -/
def locate (disk : Disk α) (path : String) : Except OsError Place :=
  match pathFault? path with
  | some cause => .error cause
  | none => (Text.pathNames path).foldlM disk.enter []

/-- The place of a name in a directory, whatever stands there. The whole path has to keep to the
limits, not only its parts.
-/
def locateIn (disk : Disk α) (directory name : String) : Except OsError Place :=
  match pathFault? (Text.joinPath directory name) with
  | some cause => .error cause
  | none => do
      let place ← disk.locate directory
      if fits name then return name :: place else throw .nameTooLong

/-- The file of a name in a directory, with its number. -/
def find? (disk : Disk α) (directory name : String) : Option (Nat × α) := do
  let place ← (disk.locateIn directory name).toOption
  match ← disk.standing? place with
  | .file number content => return (number, content)
  | .directory => none

/-- The names in a directory in alphabetical order, none if it is not there. -/
def names (disk : Disk α) (directory : String) : List String :=
  match disk.locate directory with
  | .error _ => []
  | .ok place =>
      let inside := disk.entries.filterMap fun (entry, _) =>
        if entry.tail = place then entry.head? else none
      inside.mergeSort fun left right => decide (left ≤ right)

/-- The disk with a new file at a place, in place of a file that stood there. -/
def add (disk : Disk α) (place : Place) (content : α) : Disk α :=
  let added := disk.insert place (.file disk.written content)
  { added with written := disk.written + 1 }

/-- The disk without what stands at a place or below it. -/
def remove (disk : Disk α) (place : Place) : Disk α :=
  { disk with entries := disk.entries.filter fun (other, _) => !place.isSuffixOf other }

/-- The disk with a file moved from its place to a name in a directory, where it takes the place of
a file of that name.
-/
def move (disk : Disk α) (source : Place) (directory name : String) :
    Except OsError (Disk α) := do
  let target ← disk.locateIn directory name
  match disk.standing? source, disk.standing? target with
  | some (.file ..), some .directory => throw .isDirectory
  | some (.file number content), _ =>
      return (disk.remove source).insert target (.file number content)
  | _, _ => throw .notFound

/-- The first numbered name of a stem that leads nowhere in a directory. There are more numbers
than entries.
-/
def freshName? (disk : Disk α) (directory : Place) (stem : String) : Option String :=
  let names := (List.range (disk.entries.length + 1)).map fun number => stem ++ "-" ++ number.repr
  names.find? fun name =>
    disk.entries.all fun (other, _) => !(name :: directory).isSuffixOf other

/-- Makes a directory of a new name in a directory. -/
def makeFresh (disk : Disk α) (path stem : String) : Except OsError (Place × Disk α) := do
  let directory ← disk.locate path
  match disk.freshName? directory stem with
  | some name =>
      return (name :: directory, disk.insert (name :: directory) .directory)
  | none => throw .occupied

/-- Makes the directories of the names below a place, as far as they are not there. What stands
before a dot at the end has to be there already. A file in the way occupies a name that is due:
the last one, or any once a directory has been made. Before that the path leads through it.
-/
def makeBelow (place : Place) (made : Bool) :
    List String → ExceptT OsError (StateM (Disk α)) Unit
  | [] => pure ()
  | name :: rest => do
      let disk ← get
      let due := rest != ["."]
      match disk.enter place name with
      | .ok inner => makeBelow inner made rest
      | .error cause =>
          if due ∧ cause = .notFound then
            set (disk.insert (name :: place) .directory)
            makeBelow (name :: place) true rest
          else if due ∧ cause = .notDirectory ∧ (made ∨ rest = []) then
            throw .occupied
          else
            throw cause

/-- Makes the directories on a path, from the top to the first that cannot be made. -/
def makeDirectories (path : String) : ExceptT OsError (StateM (Disk α)) Unit :=
  match pathFault? path with
  | some cause => throw cause
  | none => makeBelow [] false (Text.pathSteps path)

end Disk

end LazyTensor
