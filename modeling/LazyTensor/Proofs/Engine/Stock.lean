import LazyTensor.Proofs.Engine.Region
import LazyTensor.Proofs.Engine.Request

/-! Hosts at work. Files are written and libraries are opened under the names of kernels, so what
is found under such a name serves the units that bear it, however requests end. What it means to
serve a unit is left open: it may be to compute what the unit says, or to have its function at
all. This holds of the whole disk, and as well of the part of it that a cache works on.
-/

namespace LazyTensor.Workshop

/-- Whatever is found under the name of a unit serves the unit, and so does what is made of the text
of a proper one.
-/
structure Stocked (serves : Artifact → SourceUnit → Prop) (shop : Workshop) : Prop where
  host : shop.host.Sound serves
  compiles
    : ∀ call (unit : SourceUnit) artifact, unit.Proper →
        shop.cache.toolchain.compile call unit.name unit.source = .ok (some artifact) →
          serves artifact unit

/-- The same of what stands at or below a place where the cache keeps its kernels, and of the
libraries that are open here or in other processes.
-/
structure StockedIn (serves : Artifact → SourceUnit → Prop) (home : Place) (others : List Library)
    (shop : Workshop)
    : Prop where
  host : (shop.host.region home others).Sound serves
  compiles
    : ∀ call (unit : SourceUnit) artifact, unit.Proper →
        shop.cache.toolchain.compile call unit.name unit.source = .ok (some artifact) →
          serves artifact unit
  place : home <:+ Disk.target shop.cache.place

/-- A step after which something holds that held before, however the step ends. -/
def Keeps {α : Type} (holds : Workshop → Prop) (step : Making α) : Prop :=
  ∀ shop, holds shop → Ends step shop (fun _ => holds) (fun _ => holds)

variable {serves : Artifact → SourceUnit → Prop} {shop : Workshop}

theorem Keeps.bind {α β : Type} {holds : Workshop → Prop} {step : Making α} {next : α → Making β}
    (first : Keeps holds step) (second : ∀ value, Keeps holds (next value))
    : Keeps holds (step >>= next) := by
  intro shop held
  rw [ends_bind]
  exact (first shop held).mono (fun value final kept => second value final kept) fun _ _ kept => kept

/-- The whole disk is what stands below the top. -/
theorem stockedIn_nil : StockedIn serves [] [] = Stocked serves := by
  funext shop
  refine propext ⟨fun stocked => ⟨?_, stocked.compiles⟩, fun stocked => ⟨?_, stocked.compiles, ?_⟩⟩
  · exact shop.host.region_nil ▸ stocked.host
  · exact shop.host.region_nil.symm ▸ stocked.host
  · exact List.nil_suffix

section

variable {home : Place} {others : List Library}

theorem StockedIn.of_host (stocked : shop.StockedIn serves home others) {final : Workshop}
    (toolchain : final.cache.toolchain = shop.cache.toolchain)
    (place : final.cache.place = shop.cache.place)
    (host : (final.host.region home others).Sound serves)
    : final.StockedIn serves home others :=
  ⟨host, toolchain ▸ stocked.compiles, place ▸ stocked.place⟩

theorem keepsIn_makePlace : Keeps (StockedIn serves home others) makePlace := by
  intro shop stocked
  refine (makePlace_ends (.refl _) (Disk.makeDirectories_keeps _ _)).mono ?_ ?_
  · rintro _ _ ⟨disk, kept, rfl⟩
    exact stocked.of_host rfl rfl (Host.region_keeps stocked.host kept)
  · rintro _ _ ⟨_, disk, kept, rfl⟩
    exact stocked.of_host rfl rfl (Host.region_keeps stocked.host kept)

/-- A directory for a compilation is made where the cache keeps its kernels. -/
theorem makeScratch_stockedIn (stocked : shop.StockedIn serves home others)
    : Ends makeScratch shop
        (fun scratch final => final.StockedIn serves home others ∧ home <:+ scratch)
        (fun _ final => final.StockedIn serves home others) := by
  refine (makeScratch_ends shop).mono ?_ ?_
  · rintro scratch _ ⟨disk, made, rfl⟩
    obtain ⟨directory, name, located, rfl, _⟩ := Disk.exists_of_makeFresh made
    obtain rfl := Disk.eq_target_of_locate located
    have kept := Disk.keeps_of_makeFresh made
    exact ⟨stocked.of_host rfl rfl (Host.region_keeps stocked.host kept),
      stocked.place.trans (List.suffix_cons _ _)⟩
  · rintro _ _ ⟨_, rfl⟩
    exact stocked

variable {scratch : Place}

/-- A source that waits aside is not found under the name of an artifact, and it is the text there. -/
theorem stageSource_stockedIn (below : home <:+ scratch) (unit : SourceUnit)
    (stocked : shop.StockedIn serves home others)
    : Ends (stageSource scratch unit) shop
        (fun _ final =>
          final.StockedIn serves home others
          ∧ final.host.disk.text (sourceFile unit.name :: scratch) = unit.source)
        (fun _ final => final.StockedIn serves home others) := by
  refine (stageSource_ends scratch unit shop).mono ?_ ?_
  · rintro _ _ rfl
    refine ⟨stocked.of_host rfl rfl (Host.region_add stocked.host below fun other _ named => ?_),
      Disk.text_add _ _ _ _⟩
    exact absurd named.symm (sourceFile_ne_artifactFile _ _)
  · rintro _ _ ⟨_, rfl⟩
    exact stocked

/-- What the compiler leaves aside where the text of a proper unit waits serves the unit, and no other
unit has its name.
-/
theorem callCompiler_stockedIn {unit : SourceUnit} (proper : unit.Proper) (below : home <:+ scratch)
    (stocked : shop.StockedIn serves home others)
    (waits : shop.host.disk.text (sourceFile unit.name :: scratch) = unit.source)
    : Ends (callCompiler scratch unit.name) shop (fun _ final => final.StockedIn serves home others)
        (fun _ final => final.StockedIn serves home others) := by
  refine (callCompiler_ends scratch unit.name shop).mono ?_ (fun _ _ => False.elim)
  rw [waits]
  rintro _ _ (⟨artifact, made, _, rfl⟩ | rfl)
  · refine stocked.of_host rfl rfl
      (Host.region_add stocked.host below fun other otherProper named => ?_)
    obtain rfl := otherProper.eq_of_name proper (artifactFile_injective named)
    exact stocked.compiles _ _ _ proper made
  · exact stocked.of_host rfl rfl stocked.host

/-- A file is moved into the kernel directory under its own name. -/
theorem keepsIn_keepFile (step : FileStep) (below : home <:+ scratch) (name : String)
    : Keeps (StockedIn serves home others) (keepFile step scratch name) := by
  intro shop stocked
  refine (keepFile_ends step scratch name shop).mono ?_ ?_
  · rintro _ _ ⟨disk, moved, rfl⟩
    exact stocked.of_host rfl rfl (Host.region_move stocked.host below moved)
  · rintro _ _ ⟨_, rfl⟩
    exact stocked

theorem Keeps.clearing {α : Type} {step : Making α}
    (keeps : Keeps (StockedIn serves home others) step) (place : Place)
    : Keeps (StockedIn serves home others) (clearing place step) := by
  intro shop stocked
  have cleared {final : Workshop} (kept : final.StockedIn serves home others)
      : (final.withDisk (final.host.disk.remove place)).StockedIn serves home others :=
    kept.of_host rfl rfl (Host.region_keeps kept.host (final.host.disk.keeps_remove place))
  rw [ends_clearing]
  exact (keeps shop stocked).mono (fun _ _ => cleared) fun _ _ => cleared

theorem keepsIn_compileAside {unit : SourceUnit} (proper : unit.Proper) (below : home <:+ scratch)
    : Keeps (StockedIn serves home others) (compileAside unit scratch) := by
  intro shop stocked
  simp only [compileAside, ends_bind]
  refine (stageSource_stockedIn below unit stocked).mono ?_ fun _ _ kept => kept
  rintro _ _ ⟨stocked, waits⟩
  refine (callCompiler_stockedIn proper below stocked waits).mono ?_ fun _ _ kept => kept
  intro answer shop stocked
  refine (keepsIn_keepFile _ below _ shop stocked).mono ?_ fun _ _ kept => kept
  intro _ shop stocked
  simp only [ends_get]
  split
  · exact stocked
  · exact stocked
  · exact stocked
  · exact keepsIn_keepFile _ below _ shop stocked

theorem keepsIn_compile {unit : SourceUnit} (proper : unit.Proper)
    : Keeps (StockedIn serves home others) (compile unit) := by
  refine keepsIn_makePlace.bind fun _ shop stocked => ?_
  rw [ends_bind]
  refine (makeScratch_stockedIn stocked).mono ?_ (fun _ _ kept => kept)
  rintro scratch final ⟨kept, below⟩
  exact (keepsIn_compileAside proper below).clearing scratch final kept

theorem keepsIn_count (change : CacheCounts → CacheCounts)
    : Keeps (StockedIn serves home others) (count change) := by
  intro shop stocked
  simp only [count, changeCache, ends_modify]
  exact stocked.of_host rfl rfl stocked.host

theorem keepsIn_provide {unit : SourceUnit} (proper : unit.Proper)
    : Keeps (StockedIn serves home others) (provide unit) := by
  intro shop stocked
  simp only [provide, ends_bind, ends_get]
  split
  · exact keepsIn_count _ shop stocked
  · exact ((keepsIn_compile proper).bind fun _ => keepsIn_count _) shop stocked

/-- Opening a library that is found for a proper unit leaves all open libraries serving. -/
theorem keepsIn_load {unit : SourceUnit} (proper : unit.Proper)
    : Keeps (StockedIn serves home others) (load unit) := by
  intro shop stocked
  refine (load_ends unit shop).mono ?_ ?_
  · rintro _ _ ⟨library, code, found, _, _, rfl⟩
    have opened := (Host.region_library? stocked.host proper stocked.place found).1
    exact stocked.of_host rfl rfl (Host.region_withOpen stocked.host opened)
  · rintro _ _ ⟨_, calls, rfl⟩
    exact stocked.of_host rfl rfl stocked.host

end

-----------------------------------------------------------------------------------------
-- The whole disk
-----------------------------------------------------------------------------------------

theorem keeps_provide {unit : SourceUnit} (proper : unit.Proper)
    : Keeps (Stocked serves) (provide unit) :=
  stockedIn_nil ▸ keepsIn_provide proper

theorem keeps_load {unit : SourceUnit} (proper : unit.Proper) : Keeps (Stocked serves) (load unit) :=
  stockedIn_nil ▸ keepsIn_load proper

end LazyTensor.Workshop
