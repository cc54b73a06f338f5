import LazyTensor.Engine.Cache
import LazyTensor.Proofs.Engine.Disk

/-! What each step does on the way to a kernel. Every step says which state it leaves when it succeeds
and when it fails, and of what kind its failures are. All that holds of requests follows from this.
-/

namespace LazyTensor

/-- The failures that come from compiling: the file system, the compiler or its verdict. -/
def EngineError.ofCompiling : EngineError → Bool
  | compilation .. | notStarted .. | fileAccess .. => true
  | _ => false

/-- The failures that come from loading: the artifact, its functions or their signature. -/
def EngineError.ofLoading : EngineError → Bool
  | unreadableArtifact .. | missingSymbol .. | unsupportedArity .. => true
  | _ => false

/-- A cache that works like another one and holds the same kernels. -/
structure Cache.Alike (old new : Cache) : Prop where
  place : new.place = old.place
  recompile : new.recompile = old.recompile
  toolchain : new.toolchain = old.toolchain
  kernels : new.kernels = old.kernels

/-- A text that is written is the text at its place. -/
theorem Disk.text_add (disk : Disk KernelFile) (file : String) (place : Place) (text : String)
    : (disk.add (file :: place) (.source text)).text (file :: place) = text := by
  rw [Disk.text, standing?_add (List.cons_ne_nil _ _), if_pos rfl]
  rfl

theorem sourceFile_ne_artifactFile (left right : String) : sourceFile left ≠ artifactFile right := by
  intro same
  have last := congrArg (fun text => text.toList.getLast?) same
  simp [sourceFile, artifactFile] at last

namespace Workshop

/-- The workshop with another disk. -/
def withDisk (shop : Workshop) (disk : Disk KernelFile) : Workshop :=
  { shop with host := { shop.host with disk } }

/-- The workshop after so many more calls of the compiler. -/
def afterCalls (shop : Workshop) (calls : Nat) : Workshop :=
  { shop with
    cache := { shop.cache with compilerCalls := shop.cache.compilerCalls + calls } }

/-- The workshop after so many more artifacts were opened. -/
def afterOpening (shop : Workshop) (calls : Nat) : Workshop :=
  { shop with cache := { shop.cache with loaderCalls := shop.cache.loaderCalls + calls } }

/-- The workshop with other counts. -/
def counting (shop : Workshop) (change : CacheCounts → CacheCounts) : Workshop :=
  { shop with cache := { shop.cache with counts := change shop.cache.counts } }

variable {shop : Workshop}

/-- A file system that fails does so before the step. -/
theorem checkStep_ends (step : FileStep) (path : String) (shop : Workshop)
    : Ends (checkStep step path) shop (fun _ final => final = shop)
        (fun cause final => cause.ofCompiling ∧ final = shop) := by
  simp only [checkStep, ends_bind, ends_get]
  split
  · exact ⟨rfl, rfl⟩
  · rfl

/-- Making the kernel directory leaves what making the directories on its path leaves. -/
theorem makePlace_ends {leaves : Disk KernelFile → Prop} (untouched : leaves shop.host.disk)
    (made
      : Ends (Disk.makeDirectories shop.cache.place) shop.host.disk (fun _ => leaves)
          (fun _ => leaves))
    : Ends makePlace shop (fun _ final => ∃ disk, leaves disk ∧ final = shop.withDisk disk)
        (fun cause final =>
          cause.ofCompiling ∧ ∃ disk, leaves disk ∧ final = shop.withDisk disk) := by
  simp only [makePlace, ends_bind, ends_get]
  refine (checkStep_ends _ _ shop).mono ?_ ?_
  · rintro _ shop rfl
    have left := made.final
    unfold outcome at left
    generalize (Disk.makeDirectories shop.cache.place).run.run shop.host.disk = ran at left ⊢
    obtain ⟨made, disk⟩ := ran
    simp only [setDisk, ends_bind, ends_modify]
    split
    · exact ⟨disk, left, rfl⟩
    · exact ⟨rfl, disk, left, rfl⟩
  · rintro cause shop ⟨kind, rfl⟩
    exact ⟨kind, shop.host.disk, untouched, rfl⟩

/-- Making a directory for a compilation leaves a new directory or nothing. -/
theorem makeScratch_ends (shop : Workshop)
    : Ends makeScratch shop
        (fun scratch final =>
          ∃ disk,
            shop.host.disk.makeFresh shop.cache.place Cache.scratchStem = .ok (scratch, disk)
            ∧ final = shop.withDisk disk)
        (fun cause final => cause.ofCompiling ∧ final = shop) := by
  simp only [makeScratch, ends_bind, ends_get]
  refine (checkStep_ends _ _ shop).mono ?_ (fun _ _ failed => failed)
  rintro _ shop rfl
  split
  · exact ⟨rfl, rfl⟩
  · split
    · next disk made => exact ⟨disk, made, rfl⟩
    · exact ⟨rfl, rfl⟩

/-- Staging leaves the source aside or nothing. -/
theorem stageSource_ends (scratch : Place) (unit : SourceUnit) (shop : Workshop)
    : Ends (stageSource scratch unit) shop
        (fun _ final =>
          final
            = shop.withDisk
                (shop.host.disk.add (sourceFile unit.name :: scratch) (.source unit.source)))
        (fun cause final => cause.ofCompiling ∧ final = shop) := by
  simp only [stageSource, ends_bind, ends_get]
  refine (checkStep_ends _ _ shop).mono ?_ (fun _ _ failed => failed)
  rintro _ shop rfl
  split
  · exact ⟨rfl, rfl⟩
  · simp only [ends_bind, ends_ite, ends_throw]
    split
    · rfl
    · exact ⟨rfl, trivial⟩

/-- The compiler is called once on the text that waits aside and leaves its artifact beside it, if it
makes one.
-/
theorem callCompiler_ends (scratch : Place) (name : String) (shop : Workshop)
    : Ends (callCompiler scratch name) shop
        (fun answer final =>
          (∃ artifact,
              shop.cache.toolchain.compile shop.cache.compilerCalls name
                  (shop.host.disk.text (sourceFile name :: scratch))
                = .ok (some artifact)
              ∧ answer = .ok ()
              ∧ final
                = (shop.afterCalls 1).withDisk
                    (shop.host.disk.add (artifactFile name :: scratch) (.artifact artifact)))
          ∨ final = shop.afterCalls 1)
        (fun _ _ => False) := by
  simp only [callCompiler, changeCache, ends_bind, ends_get, ends_modify]
  split
  · next artifact made => exact Or.inl ⟨artifact, made, rfl, rfl⟩
  · exact Or.inr rfl
  · exact Or.inr rfl

/-- Keeping a file moves it or changes nothing. -/
theorem keepFile_ends (step : FileStep) (scratch : Place) (name : String) (shop : Workshop)
    : Ends (keepFile step scratch name) shop
        (fun _ final =>
          ∃ disk,
            shop.host.disk.move (name :: scratch) shop.cache.place name = .ok disk
            ∧ final = shop.withDisk disk)
        (fun cause final => cause.ofCompiling ∧ final = shop) := by
  simp only [keepFile, ends_bind, ends_get]
  refine (checkStep_ends _ _ shop).mono ?_ (fun _ _ failed => failed)
  rintro _ shop rfl
  split
  · next disk moved => exact ⟨disk, moved, rfl⟩
  · exact ⟨rfl, rfl⟩

/-- A step after which a directory is removed ends as the step does, without the directory. -/
theorem ends_clearing {α : Type} {step : Making α} {place : Place} {done : α → Workshop → Prop}
    {failed : EngineError → Workshop → Prop}
    : Ends (clearing place step) shop done failed
      ↔ Ends step shop (fun value final => done value (final.withDisk (final.host.disk.remove place)))
          (fun cause final => failed cause (final.withDisk (final.host.disk.remove place))) := by
  simp only [clearing, ends_bind, ends_lift_run, ends_get]
  unfold Ends
  rcases outcome step shop with ⟨cause | value, final⟩ <;> rfl

/-- Loading opens the artifact of a unit of at most two sources and takes the code that it offers
under the name of the unit. When it fails, nothing has changed except that an artifact may have
been opened.
-/
theorem load_ends (unit : SourceUnit) (shop : Workshop)
    : Ends (load unit) shop
        (fun kernel final =>
          ∃ library code,
            shop.host.library? shop.cache.place (artifactFile unit.name) = some library
            ∧ shop.cache.toolchain.load shop.cache.loaderCalls library.artifact unit.name = .ok code
            ∧ kernel = ⟨unit.name, unit.dtype, unit.arity, code, library.file⟩
            ∧ final = { shop.afterOpening 1 with host := shop.host.withOpen library })
        (fun cause final => cause.ofLoading ∧ ∃ calls, final = shop.afterOpening calls) := by
  simp only [load, changeCache, ends_bind, ends_ite, ends_throw, ends_get, ends_modify]
  split
  · exact ⟨rfl, 0, rfl⟩
  · split
    · exact ⟨rfl, 1, rfl⟩
    · next library found =>
        split
        · next code loaded => exact ⟨library, code, found, loaded, rfl, rfl⟩
        · exact ⟨rfl, 1, rfl⟩
        · exact ⟨rfl, 1, rfl⟩

end Workshop

end LazyTensor
