import LazyTensor.Proofs.Engine.Making

/-! Compiling aside. Source and artifact are made in a scratch directory and moved into the kernel
directory one by one. Whenever a compilation stops, the scratch directory goes, and of the disk
nothing has changed but the files that were moved and the directories on the way to the kernel
directory.
-/

namespace LazyTensor

namespace Disk

variable {α : Type} {disk disk' : Disk α}

/-- What stands at a place is what stood there, or it is one of some files in the directory of a path
and no directory stood there.
-/
def StoresAt (path : String) (files : List (String × α)) (old new : Disk α) (place : Place) : Prop :=
  new.standing? place = old.standing? place
  ∨ ∃ directory name content number,
      old.locate path = .ok directory
      ∧ (name, content) ∈ files
      ∧ place = name :: directory
      ∧ old.standing? place ≠ some .directory
      ∧ new.standing? place = some (.file number content)

/-- A disk with a scratch directory that holds files only. Elsewhere it is an older disk, to which
some files came in the directory of a path.
-/
structure Aside (path : String) (scratch : Place) (files : List (String × α)) (old new : Disk α)
    : Prop where
  stands : new.standing? scratch = some .directory
  inside : ∀ name, new.standing? (name :: scratch) ≠ some .directory
  outside : ∀ place, ¬scratch <:+ place → StoresAt path files old new place
  rooted : old.Rooted → new.Rooted

/-- Nothing stands at a place or below it. -/
def Free (disk : Disk α) (place : Place) : Prop :=
  ∀ other, place <:+ other → disk.standing? other = none

variable {path : String} {scratch directory : Place} {files : List (String × α)} {old new : Disk α}

theorem Free.ne_nil (free : disk.Free scratch) : scratch ≠ [] := by
  rintro rfl
  cases free [] (List.suffix_refl _)

/-- A directory where nothing stood is a scratch directory. -/
theorem Aside.of_makeFresh {stem : String} (made : old.makeFresh path stem = .ok (scratch, new))
    : ∃ directory name,
        old.locate path = .ok directory
        ∧ scratch = name :: directory
        ∧ old.Free scratch
        ∧ Aside path scratch [] old new := by
  obtain ⟨directory, name, located, rfl, rfl, free⟩ := exists_of_makeFresh made
  have entries := old.standing?_insert (List.cons_ne_nil name directory) .directory
  refine ⟨directory, name, located, rfl, free, ?_, ?_, ?_, ?_⟩
  · rw [entries, if_pos rfl]
  · intro inner
    rw [entries, if_neg (by simp), free _ (List.suffix_cons _ _)]
    simp
  · intro place apart
    refine Or.inl ?_
    rw [entries, if_neg]
    exact fun same => apart (same ▸ List.suffix_refl _)
  · exact fun rooted => rooted.insert (rooted.locate located) (Or.inl rfl)

/-- A file may be added to a scratch directory. -/
theorem Aside.add (aside : Aside path scratch files old new) (name : String) (content : α)
    : Aside path scratch files old (new.add (name :: scratch) content) := by
  have entries := new.standing?_add (List.cons_ne_nil name scratch) content
  constructor
  · rw [entries, if_neg (by simp)]
    exact aside.stands
  · intro inner
    rw [entries]
    split
    · simp
    · exact aside.inside inner
  · intro place apart
    rw [StoresAt, entries, if_neg]
    · exact aside.outside place apart
    · exact fun same => apart (same ▸ List.suffix_cons _ _)
  · intro rooted
    exact (aside.rooted rooted).insert aside.stands (Or.inr (aside.inside name))

/-- What was a directory still is one while files are made aside. -/
theorem Aside.keepsDirectories (aside : Aside path scratch files old new)
    (free : old.Free scratch)
    : old.KeepsDirectories new := by
  intro place stands
  have apart : ¬scratch <:+ place := by
    intro below
    rw [free place below] at stands
    cases stands
  rcases aside.outside place apart with same | ⟨_, _, _, _, _, _, _, blocked, _⟩
  · exact same.trans stands
  · exact absurd stands blocked

/-- What is beside a file that is moved and not in its way stays as it is. -/
theorem standing?_move {source place other : Place} {entry : Entry α} (source_ne : source ≠ [])
    (place_ne : place ≠ []) (beside : ¬source <:+ other) (away : other ≠ place)
    : ((disk.remove source).insert place entry).standing? other = disk.standing? other := by
  rw [standing?_insert place_ne, if_neg away, standing?_remove source_ne, if_neg beside]

/-- A file may be moved from a scratch directory to its name in the directory of a path. -/
theorem Aside.move (aside : Aside path scratch files old new) (free : old.Free scratch)
    {name : String} (located : old.locate path = .ok directory)
    (moved : new.move (name :: scratch) path name = .ok disk')
    : ∃ number content,
        new.standing? (name :: scratch) = some (.file number content)
        ∧ old.locateIn path name = .ok (name :: directory)
        ∧ disk'.standing? (name :: directory) = some (.file number content)
        ∧ Aside path scratch ((name, content) :: files) old disk' := by
  have rooted (sound : old.Rooted) : disk'.Rooted := (aside.rooted sound).move moved
  obtain ⟨inside, number, content, place, stood, unblocked, rfl⟩ := exists_of_move moved
  obtain ⟨sound, fit, _, reached, same⟩ := locateIn_eq_ok.mp place
  rw [(aside.keepsDirectories free).locate located] at reached
  obtain ⟨-, rfl⟩ := List.cons.inj same
  obtain rfl := Except.ok.inj reached
  have entries (other : Place)
      : ((new.remove (name :: scratch)).insert (name :: directory) (.file number content)).standing?
          other
        = if other = name :: directory then some (.file number content)
          else if name :: scratch <:+ other then none else new.standing? other := by
    rw [standing?_insert (by simp), standing?_remove (by simp)]
  have leads := locateIn_eq_ok.mpr ⟨sound, fit, directory, located, rfl⟩
  refine ⟨number, content, stood, leads, by rw [entries, if_pos rfl], ?_, ?_, ?_, rooted⟩
  · rw [entries, if_neg, if_neg, aside.stands]
    · exact fun below => absurd below.length_le (by simp)
    · intro same
      exact unblocked (same ▸ aside.stands)
  · intro inner
    rw [entries]
    split
    · simp
    · split
      · simp
      · exact aside.inside inner
  · intro other apart
    by_cases target : other = name :: directory
    · subst target
      refine Or.inr ⟨directory, name, content, number, located, List.mem_cons_self, rfl, ?_, ?_⟩
      · rcases aside.outside _ apart with same | ⟨_, _, _, _, _, _, _, blocked, _⟩
        · exact same ▸ unblocked
        · exact blocked
      · rw [entries, if_pos rfl]
    · have stays
          : ((new.remove (name :: scratch)).insert (name :: directory)
              (.file number content)).standing? other
            = new.standing? other :=
        standing?_move (by simp) (by simp) (fun below => apart ((List.suffix_cons _ _).trans below))
          target
      rw [StoresAt, stays]
      refine (aside.outside other apart).imp id ?_
      rintro ⟨_, _, _, _, leads, member, rest⟩
      exact ⟨_, _, _, _, leads, List.mem_cons_of_mem _ member, rest⟩

/-- A file that was moved is found when the scratch directory is gone. -/
theorem Aside.find? (aside : Aside path scratch files old new) (free : old.Free scratch)
    {stem name : String} (beside : scratch = stem :: directory)
    (located : old.locateIn path name = .ok (name :: directory)) {number : Nat} {content : α}
    (stands : new.standing? (name :: directory) = some (.file number content))
    : (new.remove scratch).find? path name = some (number, content) := by
  have apart : ¬scratch <:+ name :: directory := by
    intro below
    rw [beside] at below
    have same := below.eq_of_length (by simp)
    rw [← same, ← beside, aside.stands] at stands
    cases stands
  have keeps : old.KeepsDirectories (new.remove scratch) := by
    intro place directory
    rw [standing?_remove free.ne_nil, if_neg, aside.keepsDirectories free place directory]
    intro below
    rw [free place below] at directory
    cases directory
  refine find?_eq_some.mpr ⟨_, keeps.locateIn located, ?_⟩
  rw [standing?_remove free.ne_nil, if_neg apart, stands]

/-- Without the scratch directory the disk is the older one with the files that came. -/
theorem Aside.remove (aside : Aside path scratch files old new) (free : old.Free scratch)
    (place : Place)
    : StoresAt path files old (new.remove scratch) place := by
  by_cases below : scratch <:+ place
  · refine Or.inl ?_
    rw [standing?_remove free.ne_nil, if_pos below, free place below]
  · rw [StoresAt, standing?_remove free.ne_nil, if_neg below]
    exact aside.outside place below

end Disk

/-- Any file counts as an artifact, whatever it holds. -/
theorem Host.isSome_artifact? (host : Host) (directory name : String)
    : (host.artifact? directory name).isSome = (host.disk.find? directory name).isSome := by
  rw [Host.artifact?]
  cases host.disk.find? directory name <;> rfl

namespace Workshop

variable {shop : Workshop}

/-- What a compilation leaves, however it ends. The compiler was called at most once and the cache is
the same otherwise. The disk has new directories on the way to the kernel directory and some files in
the directory.
-/
structure Tried (files : List (String × KernelFile)) (shop final : Workshop) : Prop where
  cache : ∃ calls ≤ 1, final.cache = (shop.afterCalls calls).cache
  libraries : final.host.libraries = shop.host.libraries
  disk
    : ∃ grown,
        Disk.Grows (Disk.waypoints shop.cache.place) shop.host.disk grown
        ∧ ∀ place, Disk.StoresAt shop.cache.place files grown final.host.disk place
  rooted : shop.host.disk.Rooted → final.host.disk.Rooted

theorem Tried.alike {files : List (String × KernelFile)} {final : Workshop}
    (tried : Tried files shop final)
    : shop.cache.Alike final.cache := by
  obtain ⟨_, _, same⟩ := tried.cache
  rw [same]
  exact ⟨rfl, rfl, rfl, rfl⟩

/-- The source of a unit under its file name. -/
def stored (unit : SourceUnit) : String × KernelFile := (sourceFile unit.name, .source unit.source)

/-- The compiler leaves files in the scratch directory only, and the source still waits there. -/
theorem callCompiler_aside {unit : SourceUnit} {scratch : Place} {old : Disk KernelFile}
    {files : List (String × KernelFile)} {path : String} {number : Nat}
    (aside : Disk.Aside path scratch files old shop.host.disk)
    (waits
      : shop.host.disk.standing? (sourceFile unit.name :: scratch)
        = some (.file number (.source unit.source)))
    : Ends (callCompiler scratch unit.name) shop
        (fun _ final =>
          ∃ disk,
            final = (shop.afterCalls 1).withDisk disk
            ∧ disk.standing? (sourceFile unit.name :: scratch)
              = some (.file number (.source unit.source))
            ∧ Disk.Aside path scratch files old disk)
        (fun _ _ => False) := by
  refine (callCompiler_ends scratch unit.name _).mono ?_ (fun _ _ => id)
  rintro _ _ (⟨artifact, _, _, rfl⟩ | rfl)
  · refine ⟨_, rfl, ?_, aside.add _ _⟩
    rw [Disk.standing?_add (by simp), if_neg (by simp [sourceFile_ne_artifactFile])]
    exact waits
  · exact ⟨_, rfl, waits, aside⟩

/-- While a unit is compiled aside, the kernel directory receives the source and at the end the
artifact, and nothing else changes outside the scratch directory.
-/
theorem compileAside_ends (unit : SourceUnit) {scratch : Place} {old : Disk KernelFile}
    (shop : Workshop) (free : old.Free scratch) {directory : Place}
    (located : old.locate shop.cache.place = .ok directory)
    (aside : Disk.Aside shop.cache.place scratch [] old shop.host.disk)
    : Ends (compileAside unit scratch) shop
        (fun _ final =>
          ∃ disk number artifact,
            final = (shop.afterCalls 1).withDisk disk
            ∧ old.locateIn shop.cache.place (artifactFile unit.name)
              = .ok (artifactFile unit.name :: directory)
            ∧ disk.standing? (artifactFile unit.name :: directory) = some (.file number artifact)
            ∧ Disk.Aside shop.cache.place scratch [(artifactFile unit.name, artifact), stored unit]
                old disk)
        (fun cause final =>
          cause.ofCompiling
          ∧ ∃ calls ≤ 1, ∃ disk files,
              final = (shop.afterCalls calls).withDisk disk
              ∧ files ⊆ [stored unit]
              ∧ Disk.Aside shop.cache.place scratch files old disk) := by
  simp only [compileAside, ends_bind, ends_get]
  refine (stageSource_ends scratch unit shop).mono ?_ ?_
  · rintro _ _ rfl
    have staged := aside.add (sourceFile unit.name) (.source unit.source)
    have waits := (shop.host.disk.standing?_add (List.cons_ne_nil (sourceFile unit.name) scratch)
      (KernelFile.source unit.source) _).trans (if_pos rfl)
    refine (callCompiler_aside staged waits).mono ?_ (fun _ _ => False.elim)
    rintro answer _ ⟨disk, rfl, waits, staged⟩
    refine (keepFile_ends _ _ _ _).mono ?_ ?_
    · rintro _ _ ⟨disk, moved, rfl⟩
      obtain ⟨_, _, stood, _, _, kept⟩ := staged.move free located moved
      obtain ⟨rfl, rfl⟩ := Entry.file.inj (Option.some.inj (waits.symm.trans stood))
      have refused
          : ∃ calls ≤ 1, ∃ after files,
              (shop.afterCalls 1).withDisk disk = (shop.afterCalls calls).withDisk after
              ∧ files ⊆ [stored unit]
              ∧ Disk.Aside shop.cache.place scratch files old after :=
        ⟨1, Nat.le_refl _, disk, [stored unit], rfl, List.Subset.refl _, kept⟩
      split
      · exact ⟨rfl, refused⟩
      · exact ⟨rfl, refused⟩
      · exact ⟨rfl, refused⟩
      · refine (keepFile_ends _ _ _ _).mono ?_ ?_
        · rintro _ _ ⟨disk, moved, rfl⟩
          obtain ⟨number, artifact, _, leads, stands, kept⟩ := kept.move free located moved
          exact ⟨disk, number, artifact, rfl, leads, stands, kept⟩
        · rintro cause _ ⟨kind, rfl⟩
          exact ⟨kind, refused⟩
    · rintro cause _ ⟨kind, rfl⟩
      exact ⟨kind, 1, Nat.le_refl _, disk, [], rfl, by simp, staged⟩
  · rintro cause shop ⟨kind, rfl⟩
    exact ⟨kind, 0, Nat.zero_le _, shop.host.disk, [], rfl, by simp, aside⟩

/-- A workshop whose disk got new directories only was tried. -/
theorem Tried.of_grows {calls : Nat} (few : calls ≤ 1) {disk : Disk KernelFile}
    (grows : Disk.Grows (Disk.waypoints shop.cache.place) shop.host.disk disk)
    (rooted : shop.host.disk.Rooted → disk.Rooted)
    : Tried [] shop ((shop.afterCalls calls).withDisk disk) where
  cache := ⟨calls, few, rfl⟩
  libraries := rfl
  disk := ⟨disk, grows, fun _ => Or.inl rfl⟩
  rooted := rooted

/-- Removing the scratch directory leaves a workshop that was tried. -/
theorem Tried.of_aside {calls : Nat} (few : calls ≤ 1) {scratch : Place}
    {files : List (String × KernelFile)} {grown disk : Disk KernelFile}
    (grows : Disk.Grows (Disk.waypoints shop.cache.place) shop.host.disk grown)
    (rooted : shop.host.disk.Rooted → grown.Rooted) (free : grown.Free scratch)
    (aside : Disk.Aside shop.cache.place scratch files grown disk)
    : Tried files shop ((shop.afterCalls calls).withDisk (disk.remove scratch)) where
  cache := ⟨calls, few, rfl⟩
  libraries := rfl
  disk := ⟨grown, grows, aside.remove free⟩
  rooted := fun sound => (aside.rooted (rooted sound)).remove free.ne_nil

/-- A compilation either leaves an artifact with its source, or it fails and leaves at most the
source.
-/
theorem compile_ends (unit : SourceUnit) (shop : Workshop)
    : Ends (compile unit) shop
        (fun _ final =>
          (∃ artifact, Tried [(artifactFile unit.name, artifact), stored unit] shop final)
          ∧ (final.host.artifact? final.cache.place (artifactFile unit.name)).isSome)
        (fun cause final =>
          cause.ofCompiling ∧ ∃ files, files ⊆ [stored unit] ∧ Tried files shop final) := by
  simp only [compile, ends_bind]
  have made := (Disk.makeDirectories_grows shop.cache.place shop.host.disk).and
    (Disk.makeDirectories_rooted shop.cache.place shop.host.disk)
  refine (makePlace_ends ⟨Disk.Grows.refl _ _, id⟩ made).mono ?_ ?_
  · rintro _ _ ⟨grown, ⟨grows, rooted⟩, rfl⟩
    refine (makeScratch_ends _).mono ?_ ?_
    · rintro scratch _ ⟨disk, made, rfl⟩
      obtain ⟨directory, name, located, beside, free, aside⟩ := Disk.Aside.of_makeFresh made
      rw [ends_clearing]
      refine (compileAside_ends unit (shop.withDisk disk) free located aside).mono ?_ ?_
      · rintro _ _ ⟨disk, number, artifact, rfl, leads, stands, aside⟩
        refine ⟨⟨artifact, Tried.of_aside (Nat.le_refl _) grows rooted free aside⟩, ?_⟩
        rw [Host.isSome_artifact?]
        exact Option.isSome_iff_exists.mpr ⟨_, aside.find? free beside leads stands⟩
      · rintro cause _ ⟨kind, calls, few, disk, files, rfl, subset, aside⟩
        exact ⟨kind, files, subset, Tried.of_aside few grows rooted free aside⟩
    · rintro cause _ ⟨kind, rfl⟩
      exact ⟨kind, [], by simp, Tried.of_grows (Nat.zero_le _) grows rooted⟩
  · rintro cause _ ⟨kind, grown, ⟨grows, rooted⟩, rfl⟩
    exact ⟨kind, [], by simp, Tried.of_grows (Nat.zero_le _) grows rooted⟩

end Workshop

end LazyTensor
