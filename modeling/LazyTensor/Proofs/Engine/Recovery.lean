import LazyTensor.Proofs.Engine.Request

/-! Requests that fail. What a failed request leaves does not mislead later ones: after a failed
compilation everything that counts is as it was, and after a failed loading the artifact is there.

Main statement: `Workshop.recovers_from_failure`, for every state and every way to fail. It needs
a condition that is easily overlooked: a path that steps back may lead somewhere once a directory
on it was made.
-/

namespace LazyTensor

namespace Disk

variable {α : Type} {old new : Disk α}

/-- A path that never steps back leads down. -/
theorem suffix_of_foldlM {names : List String} (forward : ".." ∉ names) {start place : Place}
    (reached : names.foldlM new.enter start = .ok place)
    : start <:+ place := by
  induction names generalizing start with
  | nil => exact Except.ok.inj reached ▸ List.suffix_refl _
  | cons name rest ih =>
      obtain ⟨onward, forward⟩ := List.ne_and_not_mem_of_not_mem_cons forward
      rw [List.foldlM_cons] at reached
      cases entered : new.enter start name with
      | error cause =>
          rw [entered] at reached
          cases reached
      | ok inner =>
          rw [entered] at reached
          refine List.IsSuffix.trans ?_ (ih forward reached)
          rw [eq_walk_of_enter entered, walk, if_neg (Ne.symm onward)]
          split
          · exact List.suffix_refl _
          · exact List.suffix_cons _ _

/-- A path that never steps back leads to a place on every disk that has the directories above it and
the place itself, if it does so on one.
-/
theorem locate_of_directories {path : String} (forward : ".." ∉ Text.pathNames path) {place : Place}
    (located : new.locate path = .ok place)
    (stand : ∀ outer, outer <:+ place → old.standing? outer = some .directory)
    : old.locate path = .ok place := by
  have fold (names : List String) (forward : ".." ∉ names) (start : Place)
      (reached : names.foldlM new.enter start = .ok place)
      : names.foldlM old.enter start = .ok place := by
    induction names generalizing start with
    | nil => exact reached
    | cons name rest ih =>
        obtain ⟨onward, forward⟩ := List.ne_and_not_mem_of_not_mem_cons forward
        rw [List.foldlM_cons] at reached ⊢
        cases entered : new.enter start name with
        | error cause =>
            rw [entered] at reached
            cases reached
        | ok inner =>
            rw [entered] at reached
            have below := suffix_of_foldlM forward reached
            rw [enter_of_directory entered fun _ => stand inner below]
            exact ih forward inner reached
  rw [locate] at located ⊢
  split at located
  · cases located
  · exact fold _ forward _ located

end Disk

namespace Workshop

variable {shop final : Workshop} {unit : SourceUnit} {files : List (String × KernelFile)}

/-- What stands at a place after a compilation was tried stood there before, or it is a new
directory on the way to the kernel directory, or one of the files in it in place of what was no
directory.
-/
theorem Tried.standing? (tried : Tried files shop final) (place : Place)
    : final.host.disk.standing? place = shop.host.disk.standing? place
      ∨ shop.host.disk.standing? place = none
        ∧ final.host.disk.standing? place = some .directory
        ∧ place ∈ Disk.waypoints shop.cache.place
      ∨ ∃ directory name content number,
          final.host.disk.locate shop.cache.place = .ok directory
          ∧ (name, content) ∈ files
          ∧ place = name :: directory
          ∧ shop.host.disk.standing? place ≠ some .directory
          ∧ final.host.disk.standing? place = some (.file number content) := by
  obtain ⟨grown, grows, stores⟩ := tried.disk
  have keeps : grown.KeepsDirectories final.host.disk := by
    intro place stands
    rcases stores place with same | ⟨_, _, _, _, _, _, _, blocked, _⟩
    · exact same.trans stands
    · exact absurd stands blocked
  rcases stores place with same | ⟨directory, name, content, number, leads, member, rfl, free, stored⟩
  · rw [same]
    exact (grows place).imp id Or.inl
  · refine Or.inr (Or.inr ⟨directory, name, content, number, keeps.locate leads, member, rfl, ?_,
      stored⟩)
    exact fun stands => free (grows.keepsDirectories _ stands)

/-- Directories outlive a compilation. -/
theorem Tried.keepsDirectories (tried : Tried files shop final)
    : shop.host.disk.KeepsDirectories final.host.disk := by
  intro place stands
  rcases tried.standing? place with same | ⟨nothing, _⟩ | ⟨_, _, _, _, _, _, _, free, _⟩
  · exact same.trans stands
  · rw [stands] at nothing
    cases nothing
  · exact absurd stands free

/-- The kernel directory is there, or its path never steps back. -/
def LeadsOnward (shop : Workshop) : Prop :=
  (∃ directory, shop.host.disk.locate shop.cache.place = .ok directory)
  ∨ ".." ∉ Text.pathNames shop.cache.place

/-- Where artifacts are kept, a compilation that leaves at most a source leaves what stood there, or a
directory where nothing stood.
-/
theorem Tried.standing?_artifact (tried : Tried files shop final) (few : files ⊆ [stored unit])
    (name : String) (directory : Place)
    : final.host.disk.standing? (artifactFile name :: directory)
        = shop.host.disk.standing? (artifactFile name :: directory)
      ∨ shop.host.disk.standing? (artifactFile name :: directory) = none
        ∧ final.host.disk.standing? (artifactFile name :: directory) = some .directory := by
  rcases tried.standing? (artifactFile name :: directory) with
    same | ⟨nothing, made, _⟩ | ⟨_, file, content, _, _, member, same, _⟩
  · exact Or.inl same
  · exact Or.inr ⟨nothing, made⟩
  · have named : file = sourceFile unit.name :=
      congrArg Prod.fst (List.mem_singleton.mp (few member))
    rw [named] at same
    exact absurd (List.cons.inj same).1.symm (sourceFile_ne_artifactFile _ _)

/-- A compilation that leaves at most a source leaves every artifact as it is. -/
theorem Tried.find? (tried : Tried files shop final) (few : files ⊆ [stored unit])
    (rooted : shop.host.disk.Rooted) (onward : shop.LeadsOnward) (name : String)
    : final.host.disk.find? shop.cache.place (artifactFile name)
      = shop.host.disk.find? shop.cache.place (artifactFile name) := by
  refine Option.ext fun ⟨number, content⟩ => ?_
  rw [Disk.find?_eq_some, Disk.find?_eq_some]
  constructor
  · rintro ⟨place, located, stands⟩
    obtain ⟨sound, fit, directory, reached, rfl⟩ := Disk.locateIn_eq_ok.mp located
    have stood
        : shop.host.disk.standing? (artifactFile name :: directory) = some (.file number content) := by
      rcases tried.standing?_artifact few name directory with same | ⟨_, made⟩
      · exact same ▸ stands
      · rw [stands] at made
        cases made
    have leads : shop.host.disk.locate shop.cache.place = .ok directory := by
      rcases onward with ⟨known, leads⟩ | forward
      · obtain rfl := Except.ok.inj (reached.symm.trans (tried.keepsDirectories.locate leads))
        exact leads
      · -- The file stood there before, so all directories above it did.
        refine Disk.locate_of_directories forward reached fun outer above => ?_
        refine rooted.directory (above.trans (List.suffix_cons _ _)) ?_ (by rw [stood]; simp)
        rintro rfl
        exact absurd above.length_le (by simp)
    exact ⟨_, Disk.locateIn_eq_ok.mpr ⟨sound, fit, directory, leads, rfl⟩, stood⟩
  · rintro ⟨place, located, stands⟩
    refine ⟨place, tried.keepsDirectories.locateIn located, ?_⟩
    obtain ⟨_, _, directory, _, rfl⟩ := Disk.locateIn_eq_ok.mp located
    rcases tried.standing?_artifact few name directory with same | ⟨nothing, _⟩
    · exact same.trans stands
    · rw [stands] at nothing
      cases nothing

/-- A compilation that leaves at most a source leaves all requests on their routes. -/
theorem Tried.route (tried : Tried files shop final) (few : files ⊆ [stored unit])
    (rooted : shop.host.disk.Rooted) (onward : shop.LeadsOnward) (name : String)
    : final.route name = shop.route name := by
  obtain ⟨place, recompile, _, kernels⟩ := tried.alike
  rw [Workshop.route, Workshop.route, Cache.find?, Cache.find?, kernels, recompile, place,
    Host.isSome_artifact?, Host.isSome_artifact?, tried.find? few rooted onward name]

/-- A workshop after an artifact was put to use: the use is counted, the compiler was not called
and the disk is the same.
-/
def Reused (shop final : Workshop) : Prop :=
  final.cache.counts = shop.cache.counts.diskHit
  ∧ final.cache.compilerCalls = shop.cache.compilerCalls
  ∧ final.host.disk = shop.host.disk

/-- A request for an artifact that is on disk puts it to use, whether or not loading succeeds. -/
theorem Served.of_disk {result : Except EngineError Executable} (served : Served unit shop result final)
    (reused : shop.route unit.name = .disk)
    : Reused shop final := by
  have found {provided : Workshop} (had : Provided unit shop provided)
      : provided = shop.counting CacheCounts.diskHit := by
    cases had with
    | found _ => rfl
    | made missing _ _ =>
        rw [reused] at missing
        cases missing
  cases served with
  | remembered known =>
      rw [find?_eq_none_of_route reused (by decide)] at known
      cases known
  | unmade missing _ _ _ =>
      rw [reused] at missing
      cases missing
  | unloaded calls had _ _ =>
      obtain rfl := found had
      exact ⟨rfl, rfl, rfl⟩
  | loaded had _ _ =>
      obtain rfl := found had
      exact ⟨rfl, rfl, rfl⟩

/-- Requests leave every entry of the disk in a directory if every entry was in one. -/
theorem Served.rooted {result : Except EngineError Executable} (served : Served unit shop result final)
    (sound : shop.host.disk.Rooted)
    : final.host.disk.Rooted := by
  have kept {provided : Workshop} (had : Provided unit shop provided) : provided.host.disk.Rooted := by
    cases had with
    | found _ => exact sound
    | made _ _ tried => exact tried.rooted sound
  cases served with
  | remembered _ => exact sound
  | unmade _ _ _ tried => exact tried.rooted sound
  | unloaded calls had _ _ =>
      have rooted := kept had
      exact rooted
  | loaded had _ _ =>
      have rooted := kept had
      exact rooted

/-- A request that fails does so while compiling or while loading, and all entries of the disk
still lie in directories. If it fails while compiling, kernels, counts and open libraries are as
they were, and so is what stands at every place, except that directories may be new on the way to
the kernel directory and that the source of the unit may be there, new or in place of another
file. Every later request takes the route that it would have taken, if the kernel directory was
there before or its path never steps back. If the request fails while loading, kernels are as they
were and either it counts as served from an artifact and the disk is the same, or it counts as
compiled. The artifact is there; unless artifacts do not count, it is put to use by the next
request for the name.
-/
theorem recovers_from_failure (rooted : shop.host.disk.Rooted) {cause : EngineError}
    (failed : outcome (request unit) shop = (.error cause, final))
    : final.host.disk.Rooted
      ∧ (cause.ofCompiling
          ∧ shop.route unit.name = .compiler
          ∧ final.cache.kernels = shop.cache.kernels
          ∧ final.cache.counts = shop.cache.counts
          ∧ final.cache.loaderCalls = shop.cache.loaderCalls
          ∧ final.host.libraries = shop.host.libraries
          ∧ (∀ place,
              final.host.disk.standing? place = shop.host.disk.standing? place
              ∨ shop.host.disk.standing? place = none
                ∧ final.host.disk.standing? place = some .directory
                ∧ place ∈ Disk.waypoints shop.cache.place
              ∨ ∃ directory number,
                  final.host.disk.locate shop.cache.place = .ok directory
                  ∧ place = sourceFile unit.name :: directory
                  ∧ shop.host.disk.standing? place ≠ some .directory
                  ∧ final.host.disk.standing? place = some (.file number (.source unit.source)))
          ∧ (shop.LeadsOnward → ∀ name, final.route name = shop.route name)
        ∨ cause.ofLoading
          ∧ final.cache.kernels = shop.cache.kernels
          ∧ (final.cache.counts = shop.cache.counts.diskHit ∧ final.host.disk = shop.host.disk
            ∨ final.cache.counts = shop.cache.counts.compiled)
          ∧ (final.host.artifact? final.cache.place (artifactFile unit.name)).isSome
          ∧ (shop.cache.recompile = false →
              ∀ later : SourceUnit,
                later.name = unit.name →
                  Reused final (outcome (request later) final).2)) := by
  have served := served_request unit shop
  rw [failed] at served
  refine ⟨served.rooted rooted, ?_⟩
  cases served with
  | unmade missing kind few tried =>
      obtain ⟨calls, _, same⟩ := tried.cache
      refine Or.inl ⟨kind, missing, by rw [same]; rfl, by rw [same]; rfl, by rw [same]; rfl,
        tried.libraries, ?_, fun onward name => tried.route few rooted onward name⟩
      intro place
      refine (tried.standing? place).imp id (Or.imp id ?_)
      rintro ⟨directory, name, content, number, leads, member, rfl, free, stored⟩
      obtain ⟨rfl, rfl⟩ := Prod.mk.inj (List.mem_singleton.mp (few member))
      exact ⟨directory, number, leads, rfl, free, stored⟩
  | @unloaded _ provided calls had kind present =>
      obtain ⟨new, _⟩ := had.cache
      obtain ⟨_, recompile, _, kernels⟩ := had.alike
      refine Or.inr ⟨kind, kernels, ?_, present, ?_⟩
      · cases had with
        | found _ => exact Or.inl ⟨rfl, rfl⟩
        | made _ _ tried =>
            obtain ⟨_, _, unchanged⟩ := tried.cache
            exact Or.inr (congrArg (·.counts.compiled) unchanged)
      · intro counting later named
        have missing : (provided.afterOpening calls).cache.find? later.name = none := by
          rw [named]
          exact (congrArg (List.lookup unit.name) kernels).trans new
        have stands
            : (provided.host.artifact? provided.cache.place (artifactFile later.name)).isSome := by
          rw [named]
          exact present
        have reusing : (provided.afterOpening calls).cache.recompile = false :=
          recompile.trans counting
        exact (served_request later _).of_disk (route_eq_disk missing reusing stands)

/-- A cache with a kernel directory and a compiler of some ways, on a host. -/
def sampleShop (place : String) (mode : Toolchain.Mode) (failFirst : Nat) (host : Host) : Workshop :=
  ⟨.start ⟨"cc", "-O2", place, false⟩ (.simulated "cc" mode failFirst), host⟩

/-- What a request for the sample leaves. -/
def sampleAfter (shop : Workshop) : Workshop := (outcome (request sampleUnit) shop).2

/-- A cache whose compiler rejects its first call. -/
def sampleRejected : Workshop := sampleShop "kernels" .working 1 .start

/-- A cache whose compiler leaves files that are no libraries. -/
def sampleGarbage : Workshop := sampleShop "kernels" .garbage 0 .start

/-- A cache whose path steps back from a directory that is not there, to one with an artifact. -/
def sampleBack : Workshop :=
  sampleShop "p/../q" .working 1 (sampleAfter (sampleShop "q" .working 0 .start)).host

theorem results_sample
    : (outcome (request sampleUnit) sampleRejected).1
        = .error (.compilation "cc" "kernels/idle.c" (some "error: rejected\n"))
      ∧ ".." ∉ Text.pathNames sampleRejected.cache.place
      ∧ (outcome (request sampleUnit) sampleGarbage).1
        = .error (.unreadableArtifact "kernels/idle.so") := by
  decide +kernel

/-- The sample stays on its route when the compiler rejects it. A file that is no library is put
to use again.
-/
theorem recovers_from_failure_sample
    : (∀ name, (sampleAfter sampleRejected).route name = sampleRejected.route name)
      ∧ Reused (sampleAfter sampleGarbage) (sampleAfter (sampleAfter sampleGarbage)) := by
  obtain ⟨rejected, forward, unreadable⟩ := results_sample
  have ends (shop : Workshop) {cause : EngineError}
      (failed : (outcome (request sampleUnit) shop).1 = .error cause)
      : outcome (request sampleUnit) shop = (.error cause, sampleAfter shop) :=
    Prod.ext failed rfl
  constructor
  · rcases (recovers_from_failure Disk.rooted_empty (ends sampleRejected rejected)).2 with
      compiling | loading
    · exact compiling.2.2.2.2.2.2.2 (Or.inr forward)
    · cases loading.1
  · rcases (recovers_from_failure Disk.rooted_empty (ends sampleGarbage unreadable)).2 with
      compiling | loading
    · cases compiling.1
    · exact loading.2.2.2.2 rfl sampleUnit rfl

/-- Where a path steps back, a failed compilation is not without consequences. The first request
has no artifact that it could find and fails. The directory that it made on the way lets the next
request find one.
-/
theorem route_sampleBack
    : sampleBack.route "idle" = .compiler
      ∧ (outcome (request sampleUnit) sampleBack).1
        = .error (.compilation "cc" "p/../q/idle.c" (some "error: rejected\n"))
      ∧ (sampleAfter sampleBack).route "idle" = .disk := by
  decide +kernel

end Workshop

end LazyTensor
