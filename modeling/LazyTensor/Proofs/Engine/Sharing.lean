import LazyTensor.Proofs.Engine.Completion

/-! Directories that are shared. Processes with caches of their own keep their kernels at or below one
place of a disk, which held no files at first, and requests come in any order. Kernels are found by
name alone, yet a kernel that is given cannot be told from one that a new cache makes for the same
unit where nothing was before, be it from memory, from an artifact of another cache or from the
compiler.
-/

namespace LazyTensor

open Kernel

/-- Kernels of one name and one signature that do the same whatever they are called with. -/
structure Executable.BehavesAs (kernel other : Executable) : Prop where
  name : kernel.name = other.name
  dtype : kernel.dtype = other.dtype
  arity : kernel.arity = other.arity
  invoke
    : ∀ (arith : Arithmetic) (out : Storage) (sources : List Storage),
        kernel.invoke arith out sources = other.invoke arith out sources

/-- The kernel of a unit whose text defines a function. -/
def SourceUnit.compiled (unit : SourceUnit) (routine : Routine) : Executable :=
  ⟨unit.name, unit.dtype, unit.arity, routine, 0⟩

/-- A kernel behaves as the text of a unit says. -/
def Executable.BehavesAsText (kernel : Executable) (unit : SourceUnit) : Prop :=
  ∃ routine, Routine.read unit.source = some routine ∧ kernel.BehavesAs (unit.compiled routine)

namespace Executable

variable {kernel other third : Executable}

theorem BehavesAs.symm (same : kernel.BehavesAs other) : other.BehavesAs kernel :=
  ⟨same.name.symm, same.dtype.symm, same.arity.symm,
    fun arith out sources => (same.invoke arith out sources).symm⟩

theorem BehavesAs.trans (left : kernel.BehavesAs other) (right : other.BehavesAs third)
    : kernel.BehavesAs third :=
  ⟨left.name.trans right.name, left.dtype.trans right.dtype, left.arity.trans right.arity,
    fun arith out sources => (left.invoke arith out sources).trans (right.invoke arith out sources)⟩

/-- A kernel that implements a unit behaves as its text says, also where it cannot be called. -/
theorem Implements.behavesAsText {unit : SourceUnit} (implements : kernel.Implements unit)
    : kernel.BehavesAsText unit := by
  obtain ⟨routine, reads, computes⟩ := implements.code
  refine ⟨routine, reads, implements.name, implements.dtype, implements.arity, ?_⟩
  intro arith out sources
  have code := computes arith out.cells (sources.map Storage.cells)
  rw [Executable.invoke, Executable.invoke, SourceUnit.compiled, implements.name,
    implements.dtype, implements.arity, code]

/-- Kernels that behave as one text says behave alike. -/
theorem BehavesAsText.behavesAs {unit : SourceUnit} (left : kernel.BehavesAsText unit)
    (right : other.BehavesAsText unit)
    : kernel.BehavesAs other := by
  obtain ⟨routine, reads, behaves⟩ := left
  obtain ⟨same, readsToo, behavesToo⟩ := right
  obtain rfl := Option.some.inj (reads.symm.trans readsToo)
  exact behaves.trans behavesToo.symm

end Executable

-----------------------------------------------------------------------------------------
-- Fresh compilations
-----------------------------------------------------------------------------------------

/-- No file stands at a place or below it. -/
def Disk.Vacant (disk : Disk KernelFile) (home : Place) : Prop :=
  ∀ place number content, disk.Holds place number content → ¬ home <:+ place

/-- A request to a new cache where no library is open and no file stands in its directory, with a
toolchain that may fail but does not lie.
-/
structure Service.Fresh (service : Service) : Prop where
  kernels : service.before.cache.kernels = []
  toolchain : service.before.cache.toolchain.Faithful
  libraries : service.before.host.libraries = []
  vacant : service.before.host.disk.Vacant (Disk.target service.before.cache.place)

/-- Where no file stands and no library is open all serves. -/
theorem Disk.Vacant.sound {serves : Artifact → SourceUnit → Prop} {disk : Disk KernelFile}
    {home : Place} (vacant : disk.Vacant home)
    : Host.Sound serves ⟨disk.within home, []⟩ := by
  have nothing (place : Place) (number : Nat) (content : KernelFile)
      : ¬ (disk.within home).Holds place number content := by
    intro held
    obtain ⟨stands, below⟩ := holds_within.mp held
    exact vacant place number content stands below
  refine ⟨⟨?_, ?_, ?_⟩, by simp⟩
  · exact fun _ _ _ held => absurd held (nothing _ _ _)
  · exact fun _ _ _ _ _ held => absurd held (nothing _ _ _)
  · exact fun _ _ _ _ _ held => absurd held (nothing _ _ _)

namespace Service.Fresh

variable {service : Service}

/-- A fresh request is served by the compiler. -/
theorem route_eq (fresh : service.Fresh)
    : service.before.route service.unit.name = .compiler := by
  have missing
      : service.before.host.artifact? service.before.cache.place (artifactFile service.unit.name)
        = none := by
    refine Option.eq_none_iff_forall_ne_some.mpr ?_
    rintro ⟨number, artifact⟩ found
    obtain ⟨file, held, _⟩ := Host.exists_holds_of_artifact? found
    exact fresh.vacant _ _ _ held (List.suffix_cons _ _)
  rw [Workshop.route, Cache.find?, fresh.kernels, missing]
  simp

/-- A fresh request for a proper unit gives a kernel that implements it, if it gives one. -/
theorem implements (fresh : service.Fresh) (proper : service.unit.Proper) {kernel : Executable}
    (given : service.result = .ok kernel)
    : kernel.Implements service.unit := by
  have cache : service.before.cache.Sound := by
    refine ⟨fresh.toolchain, ?_⟩
    intro unit _ other found
    rw [Cache.find?, fresh.kernels] at found
    cases found
  have host
      : (service.before.host.region (Disk.target service.before.cache.place) []).Sound
          Artifact.Serves := by
    rw [Host.region, fresh.libraries]
    exact fresh.vacant.sound
  have sound : service.before.SoundIn (Disk.target service.before.cache.place) [] :=
    ⟨cache, host, fun _ _ _ proper made => fresh.toolchain.serves proper made, List.suffix_rfl⟩
  exact ((Workshop.safeIn_request proper _ sound).of_ok given).2

end Service.Fresh

-----------------------------------------------------------------------------------------
-- Sites
-----------------------------------------------------------------------------------------

/-- A process with the libraries that are open in it and the caches that live in it. -/
structure Process where
  libraries : List Library
  caches : List Cache

/-- A disk with the processes that work on it. -/
structure Site where
  disk : Disk KernelFile
  processes : List Process

namespace Site

/-- The libraries that are open in any process. -/
def libraries (site : Site) : List Library := site.processes.flatMap Process.libraries

/-- A request to a cache of one of the processes. The toolchain of the cache may have changed. -/
def service (site : Site) (process : Process) (cache : Cache) (toolchain : Toolchain)
    (unit : SourceUnit)
    : Service :=
  ⟨unit, { cache with toolchain }, ⟨site.disk, process.libraries⟩⟩

/-- The site with another process in place of one. -/
def withProcess (site : Site) (number : Nat) (process : Process) : Site :=
  { site with processes := site.processes.set number process }

/-- The site as one of the caches of a process leaves it. -/
def withShop (site : Site) (number : Nat) (process : Process) (position : Nat) (shop : Workshop)
    : Site :=
  Site.withProcess { site with disk := shop.host.disk } number
    ⟨shop.host.libraries, process.caches.set position shop.cache⟩

/-- What may happen where kernels are kept at or below a place. -/
inductive Step (home : Place) : Site → Site → Prop
  /-- A process begins. -/
  | process (site : Site) : Step home site { site with processes := ⟨[], []⟩ :: site.processes }
  /-- A cache is started in a process, whether or not artifacts of earlier runs count for it. -/
  | cache (site : Site) (number : Nat) (process : Process)
    (runs : site.processes[number]? = some process) (settings : Settings) (toolchain : Toolchain)
    (faithful : toolchain.Faithful) (below : home <:+ Disk.target settings.cacheDir)
    : Step home site
        (site.withProcess number
          { process with caches := .start settings toolchain :: process.caches })
  /-- A cache is asked for a kernel of a schedule. The toolchain may fail but does not lie. -/
  | request (site : Site) (number : Nat) (process : Process)
    (runs : site.processes[number]? = some process) (position : Nat) (cache : Cache)
    (lives : process.caches[position]? = some cache) (toolchain : Toolchain)
    (faithful : toolchain.Faithful) (unit : SourceUnit) (scheduled : unit.Scheduled)
    : Step home site
        (site.withShop number process position (site.service process cache toolchain unit).after)
  /-- Libraries of a process are closed. -/
  | close (site : Site) (number : Nat) (process : Process)
    (runs : site.processes[number]? = some process) (inUse : Nat → Bool)
    : Step home site
        (site.withProcess number
          { process with libraries := process.libraries.filter (inUse ·.file) })
  /-- Files are removed. -/
  | remove (site : Site) (place : Place) : Step home site { site with disk := site.disk.remove place }

/-- A site that is come to where kernels are kept at or below a place. At first no file stands there
and no process runs.
-/
inductive Reachable (home : Place) : Site → Prop
  | start (disk : Disk KernelFile) (vacant : disk.Vacant home) : Reachable home ⟨disk, []⟩
  | step {site next : Site} (reached : Reachable home site) (step : site.Step home next)
    : Reachable home next

/-- A cache that gives what it is asked for and keeps its kernels at or below a place. -/
structure Houses (home : Place) (cache : Cache) : Prop where
  sound : cache.Sound
  below : home <:+ Disk.target cache.place

/-- What stands at or below the place and what is open in any process serves the units by whose names
it is found, and all caches keep to the place.
-/
structure Sound (home : Place) (site : Site) : Prop where
  host : Host.Sound Artifact.Serves ⟨site.disk.within home, site.libraries⟩
  caches : ∀ process ∈ site.processes, ∀ cache ∈ process.caches, Houses home cache

variable {home : Place} {site next : Site} {process : Process} {cache : Cache}

theorem mem_libraries {library : Library}
    : library ∈ site.libraries ↔ ∃ process ∈ site.processes, library ∈ process.libraries :=
  List.mem_flatMap

/-- A site stays sound when a process changes whose libraries and caches are sound. -/
theorem Sound.withProcess (sound : site.Sound home) (number : Nat)
    (libraries
      : ∀ library ∈ process.libraries, library.Sound Artifact.Serves (site.disk.within home))
    (caches : ∀ cache ∈ process.caches, Houses home cache)
    : (site.withProcess number process).Sound home := by
  refine ⟨⟨sound.host.disk, ?_⟩, ?_⟩
  · intro library member
    obtain ⟨other, runs, open_⟩ := mem_libraries.mp member
    rcases List.mem_or_eq_of_mem_set runs with old | rfl
    · exact sound.host.libraries library (mem_libraries.mpr ⟨other, old, open_⟩)
    · exact libraries library open_
  · intro other runs
    rcases List.mem_or_eq_of_mem_set runs with old | rfl
    · exact sound.caches other old
    · exact caches

/-- A cache of a sound site is asked where all gives what it is asked for. -/
theorem Sound.service (sound : site.Sound home) (runs : process ∈ site.processes)
    (lives : cache ∈ process.caches) {toolchain : Toolchain} (faithful : toolchain.Faithful)
    (unit : SourceUnit)
    : (site.service process cache toolchain unit).before.SoundIn home site.libraries := by
  obtain ⟨known, below⟩ := sound.caches process runs cache lives
  refine ⟨⟨faithful, known.kernels⟩, ⟨sound.host.disk, ?_⟩, ?_, below⟩
  swap
  · exact fun _ _ _ proper made => faithful.serves proper made
  intro library member
  rcases List.mem_append.mp member with elsewhere | here
  · exact sound.host.libraries library elsewhere
  · exact sound.host.libraries library (mem_libraries.mpr ⟨process, runs, here⟩)

/-- A site stays sound as a cache leaves it that gives what it is asked for. -/
theorem Sound.withShop (sound : site.Sound home) (runs : process ∈ site.processes)
    {shop : Workshop} (kept : shop.SoundIn home site.libraries) (number position : Nat)
    : (site.withShop number process position shop).Sound home := by
  obtain ⟨cache, host, _, below⟩ := kept
  have elsewhere : Sound home { site with disk := shop.host.disk } := by
    refine ⟨⟨host.disk, ?_⟩, sound.caches⟩
    exact fun library member => host.libraries library (List.mem_append_left _ member)
  refine elsewhere.withProcess number ?_ ?_
  · exact fun library member => host.libraries library (List.mem_append_right _ member)
  · intro other member
    rcases List.mem_or_eq_of_mem_set member with old | rfl
    · exact sound.caches process runs other old
    · exact ⟨cache, below⟩

/-- Whatever happens, a site stays sound. -/
theorem Sound.step (sound : site.Sound home) (step : site.Step home next) : next.Sound home := by
  have opened (process : Process) (runs : process ∈ site.processes) (library : Library)
      (member : library ∈ process.libraries)
      : library.Sound Artifact.Serves (site.disk.within home) :=
    sound.host.libraries library (mem_libraries.mpr ⟨process, runs, member⟩)
  cases step with
  | process =>
      refine ⟨sound.host, ?_⟩
      exact List.forall_mem_cons.mpr ⟨by simp, sound.caches⟩
  | cache number process runs settings toolchain faithful below =>
      have runs := List.mem_of_getElem? runs
      refine sound.withProcess number (opened process runs) ?_
      exact List.forall_mem_cons.mpr
        ⟨⟨Cache.Sound.start settings faithful, below⟩, sound.caches process runs⟩
  | request number process runs position cache lives toolchain faithful unit scheduled =>
      have runs := List.mem_of_getElem? runs
      have before := sound.service runs (List.mem_of_getElem? lives) faithful unit
      have kept := Workshop.safeIn_request scheduled.proper _ before
      refine sound.withShop runs (Ends.final _ (kept.mono ?_ ?_)) number position
      · exact fun _ _ kept => kept.1
      · exact fun _ _ kept => kept
  | close number process runs inUse =>
      have runs := List.mem_of_getElem? runs
      refine sound.withProcess number ?_ (sound.caches process runs)
      exact fun library member => opened process runs library (List.mem_filter.mp member).1
  | remove place => exact ⟨sound.host.keeps (site.disk.keeps_remove place).within, sound.caches⟩

/-- Every site that is come to is sound, by induction on what happened. -/
theorem Reachable.sound (reached : site.Reachable home) : site.Sound home := by
  induction reached with
  | start disk vacant => exact ⟨vacant.sound, by simp⟩
  | step _ step ih => exact ih.step step

/-- Wherever caches share a directory, some of which compile again what is there, and whatever was
asked for before and failed, the following holds. A kernel that a cache gives for a unit of a
schedule behaves as the text of the unit says and has its element type and arity. And it behaves as
any kernel that a new cache compiles for the unit where nothing was before.
-/
theorem Reachable.kernel_behavesAs (reached : site.Reachable home)
    (runs : process ∈ site.processes) (lives : cache ∈ process.caches) {toolchain : Toolchain}
    (faithful : toolchain.Faithful) {unit : SourceUnit} (scheduled : unit.Scheduled)
    {kernel : Executable}
    (given : (site.service process cache toolchain unit).result = .ok kernel)
    : kernel.BehavesAsText unit
      ∧ ∀ fresh : Service,
          fresh.Fresh →
          fresh.unit = unit →
            fresh.before.route unit.name = .compiler
            ∧ ∀ other, fresh.result = .ok other → kernel.BehavesAs other := by
  have proper := scheduled.proper
  have before := reached.sound.service runs lives faithful unit
  have implements := ((Workshop.safeIn_request proper _ before).of_ok given).2
  refine ⟨implements.behavesAsText, ?_⟩
  rintro fresh new rfl
  refine ⟨new.route_eq, fun other made => ?_⟩
  exact implements.behavesAsText.behavesAs (new.implements proper made).behavesAsText

/-- A cache that always compiles. -/
def sampleForced : Cache :=
  .start ⟨"cc", "-O2", "./kernels", true⟩ (.simulated "cc" .working 1)

/-- The cache in a process of its own. -/
def sampleStart : Site := ⟨.empty, [⟨[], [sampleForced]⟩]⟩

/-- A request to the cache. Its compiler rejects the first call. -/
def sampleFirst : Service :=
  sampleStart.service ⟨[], [sampleForced]⟩ sampleForced (.simulated "cc" .working 1)
    Desk.sampleService.unit

/-- The site after the request. -/
def sampleFailed : Site := sampleStart.withShop 0 ⟨[], [sampleForced]⟩ 0 sampleFirst.after

/-- The request once more, in what the first one leaves of the process. -/
def sampleSecond : Service :=
  sampleFailed.service ⟨sampleFirst.after.host.libraries, [sampleFirst.after.cache]⟩
    sampleFirst.after.cache (.simulated "cc" .working 1) Desk.sampleService.unit

/-- The site after both requests. -/
def sampleMade : Site :=
  sampleFailed.withShop 0 ⟨sampleFirst.after.host.libraries, [sampleFirst.after.cache]⟩ 0
    sampleSecond.after

/-- A process with a cache that reuses artifacts and has no compiler. -/
def sampleProcess : Process :=
  ⟨[], [.start ⟨"cc", "-O2", "kernels", false⟩ (.simulated "cc" .missing 0)]⟩

/-- The two caches in processes of their own, after the requests. -/
def sample : Site :=
  Site.withProcess { sampleMade with processes := ⟨[], []⟩ :: sampleMade.processes } 0 sampleProcess

/-- A request to the cache that reuses artifacts. -/
def sampleThird : Service :=
  sample.service sampleProcess sampleProcess.caches[0] (.simulated "cc" .missing 0)
    Desk.sampleService.unit

theorem results_sample
    : sampleThird.before.route sampleThird.unit.name = .disk
      ∧ sampleThird.result.isOk
      ∧ Desk.sampleService.result.isOk := by
  decide +kernel

theorem target_sample (path : String) (member : path ∈ ["kernels", "./kernels"])
    : ["kernels"] <:+ Disk.target path := by
  have same : ∀ path ∈ ["kernels", "./kernels"], Disk.target path = ["kernels"] := by
    decide +kernel
  exact same path member ▸ List.suffix_rfl

theorem scheduled_sample : Desk.sampleService.unit.Scheduled :=
  ⟨Desk.sample, Desk.reachable_sample, Desk.sampleSums, by decide,
    [Desk.ones, Desk.negation 1, Desk.sums], rfl, Desk.negation 1, by decide,
    Desk.results_sample.1⟩

theorem reachable_sample : sample.Reachable ["kernels"] := by
  have working := Toolchain.simulated_faithful "cc" .working 1
  have begun : Reachable ["kernels"] ⟨.empty, [⟨[], []⟩]⟩ :=
    .step (.start _ fun _ _ _ held => by cases held) (.process _)
  have start : sampleStart.Reachable ["kernels"] :=
    begun.step (.cache _ 0 ⟨[], []⟩ rfl ⟨"cc", "-O2", "./kernels", true⟩ _ working
      (target_sample _ (by simp)))
  -- Each site is named as the step leaves it: to compare evaluated sites would run the requests.
  have failed : sampleFailed.Reachable ["kernels"] := by
    have asked := start.step
      (.request _ 0 ⟨[], [sampleForced]⟩ rfl 0 sampleForced rfl _ working _ scheduled_sample)
    exact asked
  have made : sampleMade.Reachable ["kernels"] := by
    have asked := failed.step
      (.request _ 0 ⟨sampleFirst.after.host.libraries, [sampleFirst.after.cache]⟩ rfl 0
        sampleFirst.after.cache rfl _ working _ scheduled_sample)
    exact asked
  have started := (made.step (.process _)).step
    (.cache _ 0 ⟨[], []⟩ rfl ⟨"cc", "-O2", "kernels", false⟩ _
      (Toolchain.simulated_faithful "cc" .missing 0) (target_sample _ (by simp)))
  exact started

/-- A cache without a compiler gives the artifact of the other cache, and the kernel behaves as one
that a new cache compiles on an empty disk.
-/
theorem kernel_behavesAs_sample
    : sampleThird.before.route sampleThird.unit.name = .disk
      ∧ ∃ kernel other,
          sampleThird.result = .ok kernel
          ∧ Desk.sampleService.result = .ok other
          ∧ kernel.BehavesAsText sampleThird.unit
          ∧ kernel.BehavesAs other := by
  obtain ⟨route, gives, compiles⟩ := results_sample
  obtain ⟨kernel, given⟩ := exists_of_isOk gives
  obtain ⟨other, compiled⟩ := exists_of_isOk compiles
  have fresh : Desk.sampleService.Fresh :=
    ⟨rfl, Toolchain.simulated_faithful _ _ _, rfl, fun _ _ _ held => by cases held⟩
  obtain ⟨behaves, same⟩ :=
    reachable_sample.kernel_behavesAs List.mem_cons_self (List.mem_singleton_self _)
      (Toolchain.simulated_faithful _ _ _) scheduled_sample given
  exact ⟨route, kernel, other, given, compiled, behaves, (same _ fresh rfl).2 _ compiled⟩

end Site

end LazyTensor
