import LazyTensor.Engine.Executable
import LazyTensor.Proofs.Engine.Room
import LazyTensor.Proofs.Kernel.Counting
import LazyTensor.Proofs.Kernel.Legibility

/-! Artifacts on disk and in open libraries. Kernel names are file names, so whatever stands under
the file name of a unit, or is open under a path that ends in it, does what the text of the unit says.
Files that are written and libraries that are opened or closed leave it that way.
-/

namespace LazyTensor

open Kernel

/-- Code computes what a function does, whatever the arithmetic. -/
def Kernel.Routine.Computes (code routine : Routine) : Prop :=
  ∀ (arith : Arithmetic) (out : Array Pattern) (sources : List (Array Pattern)),
    code.apply arith out sources = routine.apply arith out sources

/-- Code computes what the text of a unit says. -/
def Kernel.Routine.Implements (code : Routine) (unit : SourceUnit) : Prop :=
  ∃ routine, Routine.read unit.source = some routine ∧ code.Computes routine

/-- What an artifact offers under the name of a unit, if anything, computes what its text says. -/
def Artifact.Serves (artifact : Artifact) (unit : SourceUnit) : Prop :=
  ∀ code, artifact.open unit.name = .ok code → code.Implements unit

/-- What is asked of a compiler and a loader, which may fail. If the loops of the function that a text
defines count within words, an artifact that is made of the text has no code under the name of the
function but such that computes it. What is loaded is what the artifact offers.
-/
structure Toolchain.Correct (toolchain : Toolchain) : Prop where
  compile
    : ∀ call name text artifact routine code,
        toolchain.compile call name text = .ok (some artifact)
        → Routine.read text = some routine
        → Counted routine.body.bounds
        → artifact.open routine.name = .ok code
        → code.Computes routine
  load
    : ∀ call artifact name code,
        toolchain.load call artifact name = .ok code → artifact.open name = .ok code

/-- A toolchain that does not lie. Of a function with a loop that counts further than words nothing is
asked of a compiler, since a call of it does not come back. What such a call leaves is a convention:
it is what is left with counters of any size.
-/
structure Toolchain.Faithful (toolchain : Toolchain) : Prop extends toolchain.Correct where
  endless
    : ∀ call name text artifact routine code,
        toolchain.compile call name text = .ok (some artifact)
        → Routine.read text = some routine
        → ¬Counted routine.body.bounds
        → artifact.open routine.name = .ok code
        → code.Computes routine

/-- What a simulated compiler leaves for a text computes what the text says. -/
theorem Toolchain.Mode.computes_of_answer {mode : Mode} {compiler name text : String}
    {artifact : Artifact} {routine code : Routine}
    (answered : mode.answer compiler name text = .ok (some artifact))
    (reads : Routine.read text = some routine) (offered : artifact.open routine.name = .ok code)
    : code.Computes routine := by
  cases mode with
  | working =>
      simp only [answer] at answered
      split at answered
      · obtain rfl := Option.some.inj (Except.ok.inj answered)
        rw [Artifact.open, List.find?_singleton, compiled, reads] at offered
        split at offered
        · next found =>
            split at found
            · obtain rfl := Option.some.inj found
              obtain rfl := Except.ok.inj offered
              exact fun _ _ _ => rfl
            · cases found
        · cases offered
      · cases answered
  | withoutSymbol | garbage =>
      simp only [answer] at answered
      split at answered
      · obtain rfl := Option.some.inj (Except.ok.inj answered)
        cases offered
      · cases answered
  | missing | rejecting | broken | silent => cases answered

/-- However a simulated compiler behaves, it does not lie. -/
theorem Toolchain.simulated_faithful (name : String) (mode : Mode) (failFirst : Nat)
    : (simulated name mode failFirst).Faithful := by
  have computes (call : Nat) (unit text : String) (artifact : Artifact) (routine code : Routine)
      (made : (simulated name mode failFirst).compile call unit text = .ok (some artifact))
      (reads : Routine.read text = some routine) (offered : artifact.open routine.name = .ok code)
      : code.Computes routine := by
    simp only [simulated] at made
    split at made
    · exact Mode.computes_of_answer made reads offered
    · exact Mode.computes_of_answer made reads offered
  refine ⟨⟨?_, fun _ _ _ _ loaded => loaded⟩, ?_⟩
  · exact fun call unit text artifact routine code made reads _ =>
      computes call unit text artifact routine code made reads
  · exact fun call unit text artifact routine code made reads _ =>
      computes call unit text artifact routine code made reads

/-- The source unit of a task that fits. -/
def SourceUnit.Proper (unit : SourceUnit) : Prop :=
  ∃ task program, Task.Fits task program ∧ unit = task.unit program

/-- The text of a proper unit is read as a function of the unit's name and signature. -/
theorem SourceUnit.Proper.exists_read {unit : SourceUnit} (proper : unit.Proper)
    : ∃ routine,
        Routine.read unit.source = some routine
        ∧ routine.name = unit.name
        ∧ routine.dtype = unit.dtype
        ∧ routine.arity = unit.arity := by
  obtain ⟨task, program, fits, rfl⟩ := proper
  exact ⟨_, fits.runs.read_unit, rfl, rfl, rfl⟩

/-- What a toolchain that does not lie makes of the text of a proper unit serves the unit. -/
theorem Toolchain.Faithful.serves {toolchain : Toolchain} (faithful : toolchain.Faithful)
    {call : Nat} {unit : SourceUnit} (proper : unit.Proper) {artifact : Artifact}
    (made : toolchain.compile call unit.name unit.source = .ok (some artifact))
    : artifact.Serves unit := by
  intro code offered
  obtain ⟨routine, reads, named, _⟩ := proper.exists_read
  rw [← named] at offered
  refine ⟨routine, reads, ?_⟩
  by_cases counts : Counted routine.body.bounds
  · exact faithful.compile _ _ _ _ _ _ made reads counts offered
  · exact faithful.endless _ _ _ _ _ _ made reads counts offered

theorem SourceUnit.Proper.eq_of_name {left right : SourceUnit} (leftProper : left.Proper)
    (rightProper : right.Proper) (named : left.name = right.name)
    : left = right := by
  obtain ⟨leftTask, leftProgram, leftFits, rfl⟩ := leftProper
  obtain ⟨rightTask, rightProgram, rightFits, rfl⟩ := rightProper
  exact (leftFits.kernelName_iff rightFits).2 named

theorem artifactFile_injective : Function.Injective artifactFile := by
  intro left right same
  exact (String.append_left_inj ".so").mp same

theorem SourceUnit.Proper.notMem_artifactFile {unit : SourceUnit} (proper : unit.Proper)
    : '/' ∉ (artifactFile unit.name).toList := by
  obtain ⟨task, program, _, rfl⟩ := proper
  rw [artifactFile, String.toList_append, List.mem_append, not_or]
  exact ⟨task.notMem_kernelName (by decide) (by decide), by decide⟩

-----------------------------------------------------------------------------------------
-- Files on disk
-----------------------------------------------------------------------------------------

namespace Disk

variable {α : Type} {disk disk' : Disk α}

/-- A file stands at a place of the disk. -/
def Holds (disk : Disk α) (place : Place) (number : Nat) (content : α) : Prop :=
  (place, Entry.file number content) ∈ disk.entries

/-- A disk with the same files or fewer, none of which is new. -/
def Keeps (old new : Disk α) : Prop :=
  new.written = old.written
  ∧ ∀ place number content, new.Holds place number content → old.Holds place number content

theorem Keeps.refl (disk : Disk α) : disk.Keeps disk := ⟨rfl, fun _ _ _ held => held⟩

theorem Keeps.trans {first second third : Disk α} (left : first.Keeps second)
    (right : second.Keeps third)
    : first.Keeps third :=
  ⟨right.1.trans left.1, fun _ _ _ held => left.2 _ _ _ (right.2 _ _ _ held)⟩

/-- What is looked up stands on the disk. -/
theorem holds_of_standing? {place : Place} {number : Nat} {content : α}
    (found : disk.standing? place = some (.file number content))
    : disk.Holds place number content := by
  unfold standing? at found
  split at found
  · cases found
  · obtain ⟨before, after, same, _⟩ := List.lookup_eq_some_iff.mp found
    rw [Holds, same]
    exact List.mem_append_right _ (List.mem_cons_self)

theorem keeps_insert_directory (disk : Disk α) (place : Place)
    : disk.Keeps (disk.insert place .directory) := by
  refine ⟨rfl, ?_⟩
  intro other number content held
  simp only [Holds, insert, List.mem_cons, List.mem_filter, Prod.mk.injEq, reduceCtorEq,
    and_false, false_or] at held
  exact held.1

/-- Directories are made without touching files, by induction on their names. -/
theorem makeBelow_keeps (place : Place) (made : Bool) (names : List String) (disk : Disk α)
    : Ends (makeBelow place made names) disk (fun _ final => disk.Keeps final)
        (fun _ final => disk.Keeps final) := by
  induction names generalizing place made disk with
  | nil => exact Keeps.refl disk
  | cons name rest ih =>
      simp only [makeBelow, ends_bind, ends_get]
      split
      · exact ih _ _ disk
      · simp only [ends_ite, ends_bind, ends_set, ends_throw]
        split
        · refine (ih _ _ _).mono ?_ ?_
          · exact fun _ _ kept => (disk.keeps_insert_directory _).trans kept
          · exact fun _ _ kept => (disk.keeps_insert_directory _).trans kept
        · split
          · exact Keeps.refl disk
          · exact Keeps.refl disk

/-- Making the directories on a path touches no file. -/
theorem makeDirectories_keeps (path : String) (disk : Disk α)
    : Ends (makeDirectories path) disk (fun _ final => disk.Keeps final)
        (fun _ final => disk.Keeps final) := by
  rw [makeDirectories]
  split
  · exact Keeps.refl disk
  · exact makeBelow_keeps _ _ _ disk

/-- What is removed touches no other file. -/
theorem keeps_remove (disk : Disk α) (place : Place) : disk.Keeps (disk.remove place) :=
  ⟨rfl, fun _ _ _ held => (List.mem_filter.mp held).1⟩

/-- A file that is added is the only new one and has a number of its own. -/
theorem holds_of_add {place other : Place} {number : Nat} {content another : α}
    (held : (disk.add place content).Holds other number another)
    : disk.Holds other number another
      ∨ other = place ∧ number = disk.written ∧ another = content := by
  simp only [Holds, add, insert, List.mem_cons, List.mem_filter, Prod.mk.injEq, Entry.file.injEq]
    at held
  rcases held with new | old
  · exact Or.inr new
  · exact Or.inl old.1

/-- A file that is moved is the one that stood where it came from. -/
theorem holds_of_move {source : Place} {directory name : String}
    (moved : disk.move source directory name = .ok disk')
    : disk'.written = disk.written
      ∧ ∃ inside, ∀ place number content,
          disk'.Holds place number content →
            disk.Holds place number content
            ∨ place = name :: inside ∧ disk.Holds source number content := by
  obtain ⟨inside, number, content, _, stood, _, rfl⟩ := exists_of_move moved
  refine ⟨rfl, inside, ?_⟩
  intro place other another held
  simp only [Holds, insert, remove, List.mem_cons, List.mem_filter, Prod.mk.injEq, Entry.file.injEq]
    at held
  rcases held with ⟨rfl, rfl, rfl⟩ | old
  · exact Or.inr ⟨rfl, holds_of_standing? stood⟩
  · exact Or.inl old.1.1

/-- A directory of a new name touches no file. -/
theorem keeps_of_makeFresh {path stem : String} {place : Place}
    (made : disk.makeFresh path stem = .ok (place, disk'))
    : disk.Keeps disk' := by
  obtain ⟨directory, name, _, rfl, rfl, _⟩ := exists_of_makeFresh made
  exact disk.keeps_insert_directory _

end Disk

-----------------------------------------------------------------------------------------
-- Hosts
-----------------------------------------------------------------------------------------

section

variable (serves : Artifact → SourceUnit → Prop)

/-- Every file on the disk serves the units under whose file name it stands, and files of one
number are the same.
-/
structure Disk.Sound (disk : Disk KernelFile) : Prop where
  numbered : ∀ place number content, disk.Holds place number content → number < disk.written
  single
    : ∀ place other number content another,
        disk.Holds place number content → disk.Holds other number another → content = another
  serves
    : ∀ unit : SourceUnit, unit.Proper → ∀ inside number file,
        disk.Holds (artifactFile unit.name :: inside) number file → serves file.opened unit

/-- A library is what its file holds and serves the units in whose file names its paths end. -/
structure Library.Sound (disk : Disk KernelFile) (library : Library) : Prop where
  numbered : library.file < disk.written
  same
    : ∀ place content,
        disk.Holds place library.file content → content.opened = library.artifact
  serves
    : ∀ unit : SourceUnit, unit.Proper → ∀ directory,
        Text.joinPath directory (artifactFile unit.name) ∈ library.paths →
          serves library.artifact unit

/-- Disk and open libraries serve the units by whose names they are found. -/
structure Host.Sound (host : Host) : Prop where
  disk : host.disk.Sound serves
  libraries : ∀ library ∈ host.libraries, library.Sound serves host.disk

end

section

variable {serves : Artifact → SourceUnit → Prop}

namespace Disk

/-- A disk without new files stays sound. -/
theorem Sound.keeps {old new : Disk KernelFile} (sound : old.Sound serves) (keeps : old.Keeps new)
    : new.Sound serves where
  numbered := by
    intro place number content held
    rw [keeps.1]
    exact sound.numbered place number content (keeps.2 _ _ _ held)
  single := fun _ _ _ _ _ held other => sound.single _ _ _ _ _ (keeps.2 _ _ _ held)
    (keeps.2 _ _ _ other)
  serves := fun unit proper _ _ _ held => sound.serves unit proper _ _ _ (keeps.2 _ _ _ held)

/-- A disk stays sound when a file is added that serves the units of its name. -/
theorem Sound.add {disk : Disk KernelFile} (sound : disk.Sound serves) {name : String} {inside : Place}
    {content : KernelFile}
    (good
      : ∀ unit : SourceUnit, unit.Proper → artifactFile unit.name = name →
          serves content.opened unit)
    : (disk.add (name :: inside) content).Sound serves where
  numbered := by
    intro place number other stands
    rcases holds_of_add stands with old | ⟨_, rfl, _⟩
    · exact (sound.numbered _ _ _ old).trans (Nat.lt_succ_self _)
    · exact Nat.lt_succ_self _
  single := by
    intro place other number first second stands standsToo
    rcases holds_of_add stands with old | ⟨_, rfl, rfl⟩
    · rcases holds_of_add standsToo with old' | ⟨_, rfl, _⟩
      · exact sound.single _ _ _ _ _ old old'
      · exact absurd (sound.numbered _ _ _ old) (Nat.lt_irrefl _)
    · rcases holds_of_add standsToo with old' | ⟨_, _, rfl⟩
      · exact absurd (sound.numbered _ _ _ old') (Nat.lt_irrefl _)
      · rfl
  serves := by
    intro unit proper within number file stands
    rcases holds_of_add stands with old | ⟨named, _, rfl⟩
    · exact sound.serves unit proper _ _ _ old
    · exact good unit proper (List.cons.inj named).1

/-- A disk stays sound when a file comes to a place of its own name and all others stay where they
are, or go.
-/
theorem Sound.moved {old new : Disk KernelFile} (sound : old.Sound serves)
    (count : new.written = old.written) {name : String} {inside scratch : Place}
    (held
      : ∀ place number content,
          new.Holds place number content →
            old.Holds place number content
            ∨ place = name :: inside ∧ old.Holds (name :: scratch) number content)
    : new.Sound serves := by
  -- Wherever a file stands now, it stood somewhere before.
  have stood (place : Place) (number : Nat) (content : KernelFile)
      (stands : new.Holds place number content) : ∃ before, old.Holds before number content :=
    (held _ _ _ stands).elim (fun old => ⟨_, old⟩) fun came => ⟨_, came.2⟩
  constructor
  · intro place number content stands
    obtain ⟨before, old⟩ := stood _ _ _ stands
    exact count ▸ sound.numbered _ _ _ old
  · intro place other number content another stands standsToo
    obtain ⟨before, old⟩ := stood _ _ _ stands
    obtain ⟨beforeToo, oldToo⟩ := stood _ _ _ standsToo
    exact sound.single _ _ _ _ _ old oldToo
  · intro unit proper within number file stands
    rcases held _ _ _ stands with old | ⟨named, old⟩
    · exact sound.serves unit proper _ _ _ old
    · rw [← (List.cons.inj named).1] at old
      exact sound.serves unit proper _ _ _ old

end Disk

namespace Library.Sound

/-- A library stays sound on a disk without new files. -/
theorem keeps {old new : Disk KernelFile} {library : Library} (sound : library.Sound serves old)
    (keeps : old.Keeps new)
    : library.Sound serves new where
  numbered := by
    rw [keeps.1]
    exact sound.numbered
  same := fun _ _ held => sound.same _ _ (keeps.2 _ _ _ held)
  serves := sound.serves

/-- A library stays sound when a file is added, since the file has another number. -/
theorem add {disk : Disk KernelFile} {library : Library} (sound : library.Sound serves disk)
    (place : Place) (content : KernelFile)
    : library.Sound serves (disk.add place content) where
  numbered := sound.numbered.trans (Nat.lt_succ_self _)
  same := by
    intro other another stands
    rcases Disk.holds_of_add stands with old | ⟨_, same, _⟩
    · exact sound.same _ _ old
    · exact absurd same sound.numbered.ne
  serves := sound.serves

/-- A library stays sound when files stand elsewhere or are gone. -/
theorem moved {old new : Disk KernelFile} {library : Library} (sound : library.Sound serves old)
    (count : new.written = old.written) {source target : Place}
    (held
      : ∀ place number content,
          new.Holds place number content →
            old.Holds place number content
            ∨ place = target ∧ old.Holds source number content)
    : library.Sound serves new := by
  refine ⟨count ▸ sound.numbered, ?_, sound.serves⟩
  intro place content stands
  rcases held _ _ _ stands with old | ⟨_, old⟩
  · exact sound.same _ _ old
  · exact sound.same _ _ old

end Library.Sound

/-- An artifact that is found is what a file holds that stands where the path leads. -/
theorem Host.exists_holds_of_artifact? {host : Host} {directory name : String}
    {number : Nat} {artifact : Artifact}
    (found : host.artifact? directory name = some (number, artifact))
    : ∃ file,
        host.disk.Holds (name :: Disk.target directory) number file ∧ file.opened = artifact := by
  rw [artifact?] at found
  simp only [Option.bind_eq_bind, Option.bind_eq_some_iff] at found
  obtain ⟨⟨other, file⟩, stands, same⟩ := found
  obtain ⟨rfl, rfl⟩ := Prod.mk.inj (Option.some.inj same)
  obtain ⟨place, located, standing⟩ := Disk.find?_eq_some.mp stands
  obtain ⟨_, _, inside, reached, rfl⟩ := Disk.locateIn_eq_ok.mp located
  obtain rfl := Disk.eq_target_of_locate reached
  exact ⟨file, Disk.holds_of_standing? standing, rfl⟩

namespace Host.Sound

variable {host : Host}

/-- The host without files and libraries is sound. -/
theorem start : Host.start.Sound serves where
  disk := by
    constructor
    · intro place number content held
      cases held
    · intro place other number content another held
      cases held
    · intro unit proper inside number artifact held
      cases held
  libraries := by simp [Host.start]

theorem keeps (sound : host.Sound serves) {disk : Disk KernelFile} (keeps : host.disk.Keeps disk)
    : Sound serves { host with disk } :=
  ⟨sound.disk.keeps keeps, fun library member => (sound.libraries library member).keeps keeps⟩

/-- A host stays sound when a file is added that serves the units of its name. -/
theorem add (sound : host.Sound serves) {name : String} {inside : Place} {content : KernelFile}
    (good
      : ∀ unit : SourceUnit, unit.Proper → artifactFile unit.name = name →
          serves content.opened unit)
    : Sound serves { host with disk := host.disk.add (name :: inside) content } :=
  ⟨sound.disk.add good, fun library member => (sound.libraries library member).add _ _⟩

theorem closeUnused (sound : host.Sound serves) (inUse : Nat → Bool)
    : (host.closeUnused inUse).Sound serves where
  disk := sound.disk
  libraries := fun library member => sound.libraries library (List.mem_filter.mp member).1

/-- The library that is opened for a proper unit is sound and serves the unit: it is open under the
path already, or the file that stands there holds it. Of the host this needs the open libraries and
what is found there.
-/
theorem library?_of {known : Host} (sound : known.Sound serves)
    (libraries : host.libraries ⊆ known.libraries) {unit : SourceUnit} (proper : unit.Proper)
    {directory : String}
    (standing
      : ∀ number artifact,
          host.artifact? directory (artifactFile unit.name) = some (number, artifact) →
            ∃ inside file,
              known.disk.Holds (artifactFile unit.name :: inside) number file
              ∧ file.opened = artifact)
    {library : Library}
    (found : host.library? directory (artifactFile unit.name) = some library)
    : library.Sound serves known.disk ∧ serves library.artifact unit := by
  rw [Host.library?] at found
  simp only at found
  split at found
  · next open_ already =>
      obtain rfl := Option.some.inj found
      have opened := sound.libraries open_ (libraries (List.mem_of_find?_eq_some already))
      have path := List.find?_some already
      exact ⟨opened, opened.serves unit proper directory (List.contains_iff_mem.mp path)⟩
  · simp only [Option.bind_eq_bind, Option.bind_eq_some_iff] at found
    obtain ⟨_, _, ⟨number, content⟩, stands, found⟩ := found
    obtain ⟨inside, file, held, opens⟩ := standing number content stands
    -- Whatever unit has this path for one of its own has this file name.
    have served (other : SourceUnit) (otherProper : other.Proper) (place : String)
        (same
          : Text.joinPath place (artifactFile other.name)
            = Text.joinPath directory (artifactFile unit.name))
        : serves content other := by
      have named := Text.eq_of_joinPath_eq otherProper.notMem_artifactFile
        proper.notMem_artifactFile same
      exact opens ▸ sound.disk.serves other otherProper inside number file (named ▸ held)
    split at found
    · next open_ already =>
        obtain rfl := Option.some.inj found
        have opened := sound.libraries open_ (libraries (List.mem_of_find?_eq_some already))
        have number_eq : open_.file = number := by simpa using List.find?_some already
        obtain rfl := opens.symm.trans (opened.same _ _ (number_eq ▸ held))
        refine ⟨⟨opened.numbered, opened.same, ?_⟩, served unit proper directory rfl⟩
        intro other otherProper place member
        rcases List.mem_cons.mp member with same | member
        · exact served other otherProper place same
        · exact opened.serves other otherProper place member
    · obtain rfl := Option.some.inj found
      refine ⟨⟨sound.disk.numbered _ _ _ held, ?_, ?_⟩, served unit proper directory rfl⟩
      · exact fun place other stands =>
          (congrArg _ (sound.disk.single _ _ _ _ _ stands held)).trans opens
      · intro other otherProper place member
        exact served other otherProper place (List.mem_singleton.mp member)

/-- The library that is opened for a proper unit on a sound host is sound and serves the unit. -/
theorem library? (sound : host.Sound serves) {unit : SourceUnit} (proper : unit.Proper)
    {directory : String} {library : Library}
    (found : host.library? directory (artifactFile unit.name) = some library)
    : library.Sound serves host.disk ∧ serves library.artifact unit :=
  sound.library?_of (List.Subset.refl _) proper
    (fun _ _ stands => ⟨_, exists_holds_of_artifact? stands⟩) found

end Host.Sound

end

end LazyTensor
