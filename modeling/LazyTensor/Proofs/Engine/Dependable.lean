import LazyTensor.Proofs.Engine.Recovery
import LazyTensor.Proofs.Engine.Room
import LazyTensor.Proofs.Engine.Signature

/-! Compilers, loaders and disks that can be relied on. A toolchain that does what it is there
for, on a disk with room for the files of a kernel, gives the kernel; and afterwards there is room
for the others as before.
-/

namespace LazyTensor

open Kernel

/-- An artifact with the function of a unit. -/
def Artifact.Offers (artifact : Artifact) (unit : SourceUnit) : Prop :=
  ∃ code, artifact.open unit.name = .ok code

/-- A toolchain that does not fail. The text of a function whose file name fits is compiled to a
library with the function, a function that is in a library is found, and no step fails by itself.
-/
structure Toolchain.Dependable (toolchain : Toolchain) : Prop where
  compile
    : ∀ call text routine,
        Routine.read text = some routine → Disk.fits (artifactFile routine.name) →
          ∃ artifact, toolchain.compile call routine.name text = .ok (some artifact)
  offers
    : ∀ call text routine artifact,
        Routine.read text = some routine →
          toolchain.compile call routine.name text = .ok (some artifact) →
            ∃ code, artifact.open routine.name = .ok code
  load
    : ∀ call (artifact : Artifact) name code,
        artifact.open name = .ok code → ∃ code, toolchain.load call artifact name = .ok code
  fault : ∀ call step, toolchain.fault call step = none

/-- The simulated compiler that works can be relied on. -/
theorem Toolchain.working_dependable (name : String) : (simulated name .working 0).Dependable where
  compile := by
    intro call text routine _ fit
    exact ⟨_, by simp only [simulated, Nat.not_lt_zero, if_false, Mode.answer, if_pos fit]; rfl⟩
  offers := by
    intro call text routine artifact _ made
    simp only [simulated, Nat.not_lt_zero, if_false, Mode.answer] at made
    split at made
    · obtain rfl := Option.some.inj (Except.ok.inj made)
      exact ⟨compiled routine.name text, by simp [Artifact.open, compiled]⟩
    · cases made
  load := fun _ _ _ code offered => ⟨code, offered⟩
  fault := fun _ _ => rfl

/-- The text of a proper unit is compiled to a library with its function. -/
theorem Toolchain.Dependable.serves {toolchain : Toolchain} (dependable : toolchain.Dependable)
    {call : Nat} {unit : SourceUnit} (proper : unit.Proper) {artifact : Artifact}
    (made : toolchain.compile call unit.name unit.source = .ok (some artifact))
    : artifact.Offers unit := by
  obtain ⟨routine, reads, named, _⟩ := proper.exists_read
  rw [← named] at made
  obtain ⟨code, offered⟩ := dependable.offers _ _ _ _ reads made
  exact ⟨code, named ▸ offered⟩

/-- The files of a kernel. -/
def kernelFiles (name : String) : List String := [sourceFile name, artifactFile name]

/-- The paths that are used when a kernel is compiled for a kernel directory. -/
def kernelPaths (place name : String) : List String :=
  let scratch := Text.joinPath place Cache.scratchStem
  scratch :: Text.joinPath scratch (sourceFile name) :: (kernelFiles name).map (Text.joinPath place)

/-- A disk with room for the files of a kernel: the kernel directory is there or can be made,
names and paths keep to the limits, no directory stands or is made in the way of the files, and
the loader takes the path of the artifact as it is.
-/
structure Disk.Accommodates (disk : Disk KernelFile) (place name : String) : Prop where
  directory : (outcome (makeDirectories place) disk).1 = .ok ()
  names : ∀ file ∈ kernelFiles name, fits file
  paths : ∀ path ∈ kernelPaths place name, pathFault? path = none
  free
    : ∀ file ∈ kernelFiles name,
        disk.standing? (file :: target place) ≠ some .directory
        ∧ file :: target place ∉ waypoints place
  plain : Text.isReplaced (Text.joinPath place (artifactFile name)) = false

/-- A disk with a kernel directory that takes the files of a kernel. -/
structure Disk.Receives (disk : Disk KernelFile) (place : String) (directory : Place) (name : String)
    : Prop where
  located : disk.locate place = .ok directory
  names : ∀ file ∈ kernelFiles name, fits file
  paths : ∀ path ∈ kernelPaths place name, pathFault? path = none
  clear : ∀ file ∈ kernelFiles name, disk.standing? (file :: directory) ≠ some .directory

/-- Where directories are made there is a kernel directory that takes the files. -/
theorem Disk.Accommodates.receives {disk : Disk KernelFile} {place name : String}
    (room : disk.Accommodates place name)
    : (outcome (makeDirectories place) disk).2.Receives place (target place) name where
  located := locate_of_makeDirectories room.directory
  names := room.names
  paths := room.paths
  clear := by
    intro file member
    obtain ⟨clear, off⟩ := room.free file member
    have grows : Grows (waypoints place) disk (outcome (makeDirectories place) disk).2 :=
      (makeDirectories_grows place disk).final _
    rcases grows (file :: target place) with same | ⟨_, _, way⟩
    · exact same ▸ clear
    · exact absurd way off

/-- A directory for a compilation has another name than the files of a kernel: it ends in a digit. -/
theorem notMem_kernelFiles (stem : String) (number : Nat) (name : String)
    : stem ++ "-" ++ number.repr ∉ kernelFiles name := by
  have last
      : (stem ++ "-" ++ number.repr).toList.getLast? = number.repr.toList.getLast? := by
    rw [String.toList_append]
    refine List.getLast?_append_of_ne_nil _ ?_
    rw [ne_eq, String.toList_eq_nil_iff]
    exact Nat.repr_ne_empty
  have differs (ending : String) {letter : Char} (ends : ending.toList.getLast? = some letter)
      (other : letter.isDigit = false)
      : stem ++ "-" ++ number.repr ≠ name ++ ending := by
    intro same
    rw [same, String.toList_append, List.getLast?_append, ends, Option.some_or] at last
    exact Text.notMem_repr other number (List.mem_of_getLast? last.symm)
  simp only [kernelFiles, List.mem_cons, List.not_mem_nil, or_false, not_or]
  exact ⟨differs ".c" rfl rfl, differs ".so" rfl rfl⟩

/-- While files are made aside, the files of a kernel have their places in the kernel directory and
no directory stands there.
-/
theorem Disk.Receives.aside {old new : Disk KernelFile} {path name : String} {directory : Place}
    (receives : old.Receives path directory name) {stem : String} {number : Nat}
    (free : old.Free ((stem ++ "-" ++ number.repr) :: directory)) {files : List (String × KernelFile)}
    (aside : Disk.Aside path ((stem ++ "-" ++ number.repr) :: directory) files old new)
    {file : String} (member : file ∈ kernelFiles name)
    : new.locateIn path file = .ok (file :: directory)
      ∧ new.standing? (file :: directory) ≠ some .directory := by
  have sound := receives.paths (Text.joinPath path file)
    (List.mem_cons_of_mem _ (List.mem_cons_of_mem _ (List.mem_map_of_mem member)))
  have located := (aside.keepsDirectories free).locate receives.located
  refine ⟨locateIn_eq_ok.mpr ⟨sound, receives.names file member, directory, located, rfl⟩, ?_⟩
  have apart : ¬(stem ++ "-" ++ number.repr) :: directory <:+ file :: directory := by
    intro below
    have same := (List.cons.inj (below.eq_of_length rfl)).1
    exact notMem_kernelFiles stem number name (same ▸ member)
  rcases aside.outside _ apart with same | ⟨_, _, _, _, _, _, _, _, stored⟩
  · exact same ▸ receives.clear file member
  · simp [stored]

/-- An artifact that is found is opened unless the loader takes its path for another one. -/
theorem Host.exists_library? {host : Host} {directory name : String}
    (present : (host.artifact? directory name).isSome)
    (plain : Text.isReplaced (Text.joinPath directory name) = false)
    : ∃ library, host.library? directory name = some library := by
  obtain ⟨⟨number, artifact⟩, found⟩ := Option.isSome_iff_exists.mp present
  rw [library?]
  simp only [plain, found]
  split
  · exact ⟨_, rfl⟩
  · simp only [Bool.not_false, guard_true, Option.pure_def, Option.bind_eq_bind, Option.bind_some]
    split <;> exact ⟨_, rfl⟩

namespace Workshop

variable {shop : Workshop}

-----------------------------------------------------------------------------------------
-- Steps that succeed
-----------------------------------------------------------------------------------------

theorem checkStep_succeeds (shop : Workshop) (dependable : shop.cache.toolchain.Dependable)
    (step : FileStep) (path : String)
    : Ends (checkStep step path) shop (fun _ final => final = shop) (fun _ _ => False) := by
  simp only [checkStep, ends_bind, ends_get, dependable.fault, ends_pure]

theorem makePlace_succeeds (shop : Workshop) (dependable : shop.cache.toolchain.Dependable)
    (made : (outcome (Disk.makeDirectories shop.cache.place) shop.host.disk).1 = .ok ())
    : Ends makePlace shop
        (fun _ final =>
          final
            = shop.withDisk (outcome (Disk.makeDirectories shop.cache.place) shop.host.disk).2)
        (fun _ _ => False) := by
  simp only [makePlace, ends_bind, ends_get]
  refine (checkStep_succeeds _ dependable _ _).mono ?_ (fun _ _ => id)
  rintro _ _ rfl
  unfold outcome at made ⊢
  generalize (Disk.makeDirectories _).run.run _ = ran at made ⊢
  obtain ⟨result, disk⟩ := ran
  obtain rfl : result = .ok () := made
  simp only [setDisk, ends_bind, ends_modify, ends_pure]
  rfl

theorem makeScratch_succeeds (shop : Workshop) (dependable : shop.cache.toolchain.Dependable)
    (path : Disk.pathFault? shop.cache.scratch = none) {directory : Place}
    (located : shop.host.disk.locate shop.cache.place = .ok directory)
    : Ends makeScratch shop
        (fun scratch final =>
          ∃ (number : Nat) (disk : Disk KernelFile),
            scratch = (Cache.scratchStem ++ "-" ++ number.repr) :: directory
            ∧ shop.host.disk.makeFresh shop.cache.place Cache.scratchStem = .ok (scratch, disk)
            ∧ final = shop.withDisk disk)
        (fun _ _ => False) := by
  obtain ⟨number, made⟩ := Disk.exists_makeFresh located Cache.scratchStem
  simp only [makeScratch, ends_bind, ends_get]
  refine (checkStep_succeeds _ dependable _ _).mono ?_ (fun _ _ => id)
  rintro _ _ rfl
  simp only [path, made, setDisk, ends_bind, ends_modify, ends_pure]
  exact ⟨number, _, rfl, rfl, rfl⟩

theorem stageSource_succeeds (shop : Workshop) (dependable : shop.cache.toolchain.Dependable)
    {unit : SourceUnit} (path : Disk.pathFault? (shop.cache.scratchPath (sourceFile unit.name)) = none)
    (fit : Disk.fits (sourceFile unit.name)) (scratch : Place)
    : Ends (stageSource scratch unit) shop
        (fun _ final =>
          final
            = shop.withDisk
                (shop.host.disk.add (sourceFile unit.name :: scratch) (.source unit.source)))
        (fun _ _ => False) := by
  simp only [stageSource, ends_bind, ends_get]
  refine (checkStep_succeeds _ dependable _ _).mono ?_ (fun _ _ => id)
  rintro _ _ rfl
  simp only [path, fit, setDisk]
  rfl

theorem callCompiler_succeeds (shop : Workshop) (dependable : shop.cache.toolchain.Dependable)
    {unit : SourceUnit} (proper : unit.Proper) (fit : Disk.fits (artifactFile unit.name))
    {scratch : Place} (waits : shop.host.disk.text (sourceFile unit.name :: scratch) = unit.source)
    : Ends (callCompiler scratch unit.name) shop
        (fun answer final =>
          answer = .ok ()
          ∧ ∃ artifact,
              final
              = (shop.afterCalls 1).withDisk
                  (shop.host.disk.add (artifactFile unit.name :: scratch) (.artifact artifact)))
        (fun _ _ => False) := by
  obtain ⟨routine, reads, named, _⟩ := proper.exists_read
  rw [← named] at fit
  obtain ⟨artifact, made⟩ := dependable.compile shop.cache.compilerCalls _ routine reads fit
  rw [named] at made
  simp only [callCompiler, changeCache, ends_bind, ends_get, ends_modify, waits, made]
  exact ⟨rfl, artifact, rfl⟩

theorem keepFile_succeeds (shop : Workshop) (dependable : shop.cache.toolchain.Dependable)
    (step : FileStep) {scratch place : Place} {name : String} {number : Nat} {content : KernelFile}
    (located : shop.host.disk.locateIn shop.cache.place name = .ok place)
    (stands : shop.host.disk.standing? (name :: scratch) = some (.file number content))
    (free : shop.host.disk.standing? place ≠ some .directory)
    : Ends (keepFile step scratch name) shop
        (fun _ final =>
          final
            = shop.withDisk
                ((shop.host.disk.remove (name :: scratch)).insert place (.file number content)))
        (fun _ _ => False) := by
  simp only [keepFile, ends_bind, ends_get]
  refine (checkStep_succeeds _ dependable _ _).mono ?_ (fun _ _ => id)
  rintro _ _ rfl
  simp only [Disk.move_eq_ok located stands free, setDisk, ends_modify]
  rfl

/-- A unit is compiled aside if the kernel directory takes its files. -/
theorem compileAside_succeeds (shop : Workshop) (dependable : shop.cache.toolchain.Dependable)
    {unit : SourceUnit} (proper : unit.Proper) {old : Disk KernelFile} {directory : Place}
    (receives : old.Receives shop.cache.place directory unit.name) {number : Nat}
    (free : old.Free ((Cache.scratchStem ++ "-" ++ number.repr) :: directory))
    (aside
      : Disk.Aside shop.cache.place ((Cache.scratchStem ++ "-" ++ number.repr) :: directory) [] old
          shop.host.disk)
    : Ends (compileAside unit ((Cache.scratchStem ++ "-" ++ number.repr) :: directory)) shop
        (fun _ _ => True) (fun _ _ => False) := by
  let scratch := (Cache.scratchStem ++ "-" ++ number.repr) :: directory
  let source := sourceFile unit.name
  let artifact := artifactFile unit.name
  have listed : source ∈ kernelFiles unit.name ∧ artifact ∈ kernelFiles unit.name := by
    simp [kernelFiles, source, artifact]
  have other : source :: scratch ≠ artifact :: scratch := by
    simp [source, artifact, sourceFile_ne_artifactFile]
  -- The source is written and the compiler leaves the artifact beside it.
  let first := shop.host.disk.add (source :: scratch) (.source unit.source)
  simp only [compileAside, ends_bind, ends_get]
  refine (stageSource_succeeds shop dependable ?_ (receives.names _ listed.1) scratch).mono ?_
    (fun _ _ => id)
  · exact receives.paths _ (List.mem_cons_of_mem _ List.mem_cons_self)
  rintro _ _ rfl
  refine (callCompiler_succeeds (shop.withDisk first) dependable proper (receives.names _ listed.2)
    (Disk.text_add _ _ _ _)).mono ?_ (fun _ _ => id)
  rintro _ _ ⟨rfl, library, rfl⟩
  let second := first.add (artifact :: scratch) (.artifact library)
  have staged := (aside.add source (.source unit.source)).add artifact (.artifact library)
  have sourceWaits
      : second.standing? (source :: scratch)
        = some (.file shop.host.disk.written (.source unit.source)) := by
    rw [Disk.standing?_add (by simp), if_neg other, Disk.standing?_add (by simp), if_pos rfl]
  have artifactWaits
      : second.standing? (artifact :: scratch) = some (.file first.written (.artifact library)) := by
    rw [Disk.standing?_add (by simp), if_pos rfl]
  -- First the source is moved and then the artifact, which is still where it was.
  obtain ⟨leads, unblocked⟩ := receives.aside free staged listed.1
  refine (keepFile_succeeds (((shop.withDisk first).afterCalls 1).withDisk second) dependable
    .keepSource leads sourceWaits unblocked).mono ?_ (fun _ _ => id)
  rintro _ _ rfl
  obtain ⟨_, _, _, _, _, kept⟩ := staged.move free receives.located
    (Disk.move_eq_ok leads sourceWaits unblocked)
  obtain ⟨leads, unblocked⟩ := receives.aside free kept listed.2
  let third :=
    (second.remove (source :: scratch)).insert (source :: directory)
      (.file shop.host.disk.written (.source unit.source))
  have stays : third.standing? (artifact :: scratch) = second.standing? (artifact :: scratch) :=
    Disk.standing?_move (by simp) (by simp) (fun below => other (below.eq_of_length rfl))
      (by simp [scratch])
  exact (keepFile_succeeds ((((shop.withDisk first).afterCalls 1).withDisk second).withDisk third)
    dependable .keepArtifact leads (stays.trans artifactWaits) unblocked).mono
    (fun _ _ _ => trivial) (fun _ _ => id)

/-- A unit is compiled if there is room for its files. -/
theorem compile_succeeds (shop : Workshop) (dependable : shop.cache.toolchain.Dependable)
    {unit : SourceUnit} (proper : unit.Proper)
    (room : shop.host.disk.Accommodates shop.cache.place unit.name)
    : Ends (compile unit) shop (fun _ _ => True) (fun _ _ => False) := by
  let made := (outcome (Disk.makeDirectories shop.cache.place) shop.host.disk).2
  have receives : made.Receives _ _ _ := room.receives
  simp only [compile, ends_bind]
  refine (makePlace_succeeds shop dependable room.directory).mono ?_ (fun _ _ => id)
  rintro _ _ rfl
  refine (makeScratch_succeeds (shop.withDisk made) dependable (room.paths _ List.mem_cons_self)
    receives.located).mono ?_ (fun _ _ => id)
  rintro _ _ ⟨number, disk, rfl, fresh, rfl⟩
  obtain ⟨_, _, _, _, free, aside⟩ := Disk.Aside.of_makeFresh fresh
  rw [ends_clearing]
  exact (compileAside_succeeds ((shop.withDisk made).withDisk disk) dependable proper receives free
    aside).mono (fun _ _ _ => trivial) (fun _ _ => id)

/-- An artifact that is there is opened for a proper unit. -/
theorem load_succeeds (shop : Workshop) (dependable : shop.cache.toolchain.Dependable)
    (sound : shop.host.Sound Artifact.Offers) {unit : SourceUnit} (proper : unit.Proper)
    (present : (shop.host.artifact? shop.cache.place (artifactFile unit.name)).isSome)
    (plain : Text.isReplaced (Text.joinPath shop.cache.place (artifactFile unit.name)) = false)
    : Ends (load unit) shop (fun _ _ => True) (fun _ _ => False) := by
  obtain ⟨library, opened⟩ := Host.exists_library? present plain
  obtain ⟨_, _, offered⟩ := sound.library? proper opened
  obtain ⟨code, loaded⟩ := dependable.load shop.cache.loaderCalls _ _ _ offered
  simp only [load, changeCache, ends_bind, ends_get, ends_modify,
    if_neg (Nat.not_lt.mpr proper.arity_le), opened, loaded]
  trivial

-----------------------------------------------------------------------------------------
-- Requests that succeed
-----------------------------------------------------------------------------------------

/-- A workshop that can be relied on for kernels of some names. -/
structure Reliable (names : List String) (shop : Workshop) : Prop where
  dependable : shop.cache.toolchain.Dependable
  sound : shop.host.Sound Artifact.Offers
  room : ∀ name ∈ names, shop.host.disk.Accommodates shop.cache.place name

variable {names : List String}

theorem Reliable.stocked (reliable : shop.Reliable names) : shop.Stocked Artifact.Offers :=
  ⟨reliable.sound, fun _ _ _ proper made => reliable.dependable.serves proper made⟩

/-- Where a kernel was compiled there is room for the others as before. -/
theorem Tried.accommodates {files : List (String × KernelFile)} {final : Workshop}
    (tried : Tried files shop final) {directory : Place}
    (located : final.host.disk.locate shop.cache.place = .ok directory) {name : String}
    (room : shop.host.disk.Accommodates shop.cache.place name)
    : final.host.disk.Accommodates shop.cache.place name where
  directory := congrArg Prod.fst (Disk.outcome_makeDirectories located)
  names := room.names
  paths := room.paths
  free := by
    intro file member
    obtain ⟨clear, off⟩ := room.free file member
    refine ⟨?_, off⟩
    rcases tried.standing? (file :: Disk.target shop.cache.place) with
      same | ⟨_, _, way⟩ | ⟨_, _, _, _, _, _, _, _, stored⟩
    · exact same ▸ clear
    · exact absurd way off
    · simp [stored]
  plain := room.plain

/-- An artifact is provided where there is room for it. -/
theorem provide_succeeds (reliable : shop.Reliable names) {unit : SourceUnit}
    (proper : unit.Proper) (member : unit.name ∈ names)
    : Ends (provide unit) shop (fun _ _ => True) (fun _ _ => False) := by
  simp only [provide, count, changeCache, ends_bind, ends_get, ends_ite, ends_modify]
  split
  · trivial
  · exact (compile_succeeds shop reliable.dependable proper (reliable.room _ member)).mono
      (fun _ _ _ => trivial) (fun _ _ => id)

/-- What was provided leaves room for all kernels for which there was room. -/
theorem Provided.accommodates {unit : SourceUnit} {final : Workshop} (had : Provided unit shop final)
    (present : (final.host.artifact? final.cache.place (artifactFile unit.name)).isSome)
    {name : String} (room : shop.host.disk.Accommodates shop.cache.place name)
    : final.host.disk.Accommodates final.cache.place name := by
  cases had with
  | found _ => exact room
  | @made final missing artifact tried =>
      have place : final.cache.place = shop.cache.place := tried.alike.place
      obtain ⟨⟨number, content⟩, found⟩ := Option.isSome_iff_exists.mp
        ((final.host.isSome_artifact? _ _).symm.trans present)
      obtain ⟨_, located, _⟩ := Disk.find?_eq_some.mp found
      obtain ⟨_, _, directory, located, _⟩ := Disk.locateIn_eq_ok.mp located
      have room := tried.accommodates (place ▸ located) room
      exact place ▸ room

/-- A request for a proper unit succeeds in a workshop that can be relied on and leaves one. -/
theorem request_succeeds (reliable : shop.Reliable names) {unit : SourceUnit} (proper : unit.Proper)
    (member : unit.name ∈ names)
    : Ends (request unit) shop (fun _ final => final.Reliable names) (fun _ _ => False) := by
  simp only [request, ends_bind, ends_get]
  split
  · simp only [count, changeCache, ends_bind, ends_modify, ends_pure]
    exact ⟨reliable.dependable, reliable.sound, reliable.room⟩
  · next new =>
      have provides := (provide_ends unit shop new).and ((provide_succeeds reliable proper member).and
        (keeps_provide proper shop reliable.stocked))
      simp only [changeCache, ends_bind, ends_modify, ends_pure]
      refine provides.mono ?_ (fun _ _ failed => failed.2.1)
      rintro _ middle ⟨⟨had, present⟩, _, stocked⟩
      have dependable : middle.cache.toolchain.Dependable :=
        had.alike.toolchain ▸ reliable.dependable
      have room (name : String) (member : name ∈ names) :=
        had.accommodates present (reliable.room name member)
      have loads := (load_ends unit middle).and
        ((load_succeeds middle dependable stocked.host proper present (room _ member).plain).and
          (keeps_load proper middle stocked))
      refine loads.mono ?_ (fun _ _ failed => failed.2.1)
      rintro _ _ ⟨⟨library, code, _, _, rfl, rfl⟩, _, opened⟩
      exact ⟨dependable, opened.host, room⟩

/-- The kernel of a task that fits is made in a workshop that can be relied on. -/
theorem prepareTask_succeeds (reliable : shop.Reliable names) {task : Task}
    (fits : ∃ program, task.Fits program) (member : task.kernelName ∈ names)
    : Ends (prepareTask task) shop (fun _ final => final.Reliable names) (fun _ _ => False) := by
  obtain ⟨program, fits⟩ := fits
  simp only [prepareTask, fits.render_eq, ends_bind, ends_pure]
  exact request_succeeds reliable ⟨task, program, fits, rfl⟩ member

end Workshop

end LazyTensor
