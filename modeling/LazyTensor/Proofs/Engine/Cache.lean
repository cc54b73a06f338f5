import LazyTensor.Engine.Run
import LazyTensor.Proofs.Engine.Stock

/-! Kernels that are made for tasks. Whether a kernel comes from memory, from the disk or from the
compiler, it implements the unit that was asked for; this holds on a cache and a host that were
used before, by this cache or by others, and however earlier requests ended.
-/

namespace LazyTensor

/-- A kernel that can stand for a unit: its name and its signature are the unit's and its code
computes what the unit says.
-/
structure Executable.Implements (kernel : Executable) (unit : SourceUnit) : Prop where
  name : kernel.name = unit.name
  dtype : kernel.dtype = unit.dtype
  arity : kernel.arity = unit.arity
  code : kernel.code.Implements unit

/-- The toolchain does not lie and kernels in memory implement the units of their names. -/
structure Cache.Sound (cache : Cache) : Prop where
  toolchain : cache.toolchain.Faithful
  kernels
    : ∀ unit : SourceUnit, unit.Proper → ∀ kernel,
        cache.find? unit.name = some kernel → kernel.Implements unit

/-- Cache and host give what they are asked for. -/
structure Workshop.Sound (shop : Workshop) : Prop where
  cache : shop.cache.Sound
  host : shop.host.Sound Artifact.Serves

theorem Cache.Sound.start (settings : Settings) {toolchain : Toolchain}
    (faithful : toolchain.Faithful)
    : (Cache.start settings toolchain).Sound where
  toolchain := faithful
  kernels := by
    intro unit _ kernel found
    cases found

/-- What a cache counts does not matter. -/
theorem Cache.Sound.of_eq {cache changed : Cache} (sound : cache.Sound)
    (toolchain : changed.toolchain = cache.toolchain) (kernels : changed.kernels = cache.kernels)
    : changed.Sound where
  toolchain := toolchain ▸ sound.toolchain
  kernels := by
    intro unit proper kernel found
    rw [find?, kernels] at found
    exact sound.kernels unit proper kernel found

/-- A kernel that implements a unit may be put under its name. -/
theorem Cache.Sound.add {cache : Cache} (sound : cache.Sound) {unit : SourceUnit}
    (proper : unit.Proper) {kernel : Executable} (implements : kernel.Implements unit)
    : Sound { cache with kernels := cache.kernels ++ [(unit.name, kernel)] } where
  toolchain := sound.toolchain
  kernels := by
    intro other otherProper found lookup
    rw [find?, List.lookup_append, Option.or_eq_some_iff] at lookup
    rcases lookup with old | ⟨_, new⟩
    · exact sound.kernels other otherProper found old
    · rw [List.lookup_cons] at new
      split at new
      · next named =>
          obtain rfl := otherProper.eq_of_name proper (beq_iff_eq.mp named)
          obtain rfl := Option.some.inj new
          exact implements
      · cases new

namespace Workshop

/-- Cache and host give what they are asked for, the host where the cache keeps its kernels: at or
below a place, with the libraries of other processes.
-/
structure SoundIn (home : Place) (others : List Library) (shop : Workshop) : Prop where
  cache : shop.cache.Sound
  stocked : shop.StockedIn Artifact.Serves home others

/-- A step that leaves a sound workshop sound, however it ends, and gives what is promised. -/
def Safe {α : Type} (step : Making α) (promise : α → Prop) : Prop :=
  ∀ shop : Workshop, shop.Sound →
    Ends step shop (fun value final => final.Sound ∧ promise value) (fun _ final => final.Sound)

/-- A step that is safe where a cache keeps its kernels. -/
def SafeIn {α : Type} (home : Place) (others : List Library) (step : Making α) (promise : α → Prop)
    : Prop :=
  ∀ shop : Workshop, shop.SoundIn home others →
    Ends step shop (fun value final => final.SoundIn home others ∧ promise value)
      (fun _ final => final.SoundIn home others)

/-- A workshop is sound if it is sound on the whole disk. -/
theorem soundIn_nil : SoundIn [] [] = Sound := by
  funext shop
  refine propext ⟨fun sound => ⟨sound.cache, ?_⟩, fun sound => ⟨sound.cache, ?_⟩⟩
  · have stocked := sound.stocked
    rw [stockedIn_nil] at stocked
    exact stocked.host
  · rw [stockedIn_nil]
    exact ⟨sound.host, fun _ _ _ proper made => sound.cache.toolchain.serves proper made⟩

theorem safeIn_nil {α : Type} {step : Making α} {promise : α → Prop}
    : SafeIn [] [] step promise ↔ Safe step promise := by
  rw [SafeIn, soundIn_nil, Safe]

section

variable {home : Place} {others : List Library}

/-- Safe steps may follow each other. -/
theorem SafeIn.bind {α β : Type} {step : Making α} {next : α → Making β} {middle : α → Prop}
    {promise : β → Prop} (first : SafeIn home others step middle)
    (second : ∀ value, middle value → SafeIn home others (next value) promise)
    : SafeIn home others (step >>= next) promise := by
  intro shop sound
  rw [ends_bind]
  refine (first shop sound).mono ?_ (fun _ _ sound => sound)
  exact fun value final kept => second value kept.2 final kept.1

/-- Compiling a proper unit is safe. -/
theorem safeIn_compile {unit : SourceUnit} (proper : unit.Proper)
    : SafeIn home others (compile unit) fun _ => True := by
  intro shop sound
  have still {files : List (String × KernelFile)} {final : Workshop} (tried : Tried files shop final)
      (stocked : final.StockedIn Artifact.Serves home others)
      : final.SoundIn home others :=
    ⟨sound.cache.of_eq tried.alike.toolchain tried.alike.kernels, stocked⟩
  refine ((keepsIn_compile proper shop sound.stocked).and (compile_ends unit shop)).mono ?_ ?_
  · rintro _ final ⟨stocked, ⟨_, tried⟩, _⟩
    exact ⟨still tried stocked, trivial⟩
  · rintro _ final ⟨stocked, _, _, _, tried⟩
    exact still tried stocked

/-- Loading a proper unit is safe and gives a kernel that implements it. -/
theorem safeIn_load {unit : SourceUnit} (proper : unit.Proper)
    : SafeIn home others (load unit) fun kernel => kernel.Implements unit := by
  intro shop sound
  refine ((keepsIn_load proper shop sound.stocked).and (load_ends unit shop)).mono ?_ ?_
  · rintro _ _ ⟨stocked, library, code, found, loaded, rfl, rfl⟩
    have serves :=
      (Host.region_library? sound.stocked.host proper sound.stocked.place found).2
    have offered := sound.cache.toolchain.load _ _ _ _ loaded
    exact ⟨⟨sound.cache.of_eq rfl rfl, stocked⟩, rfl, rfl, rfl, serves code offered⟩
  · rintro _ _ ⟨stocked, _, calls, rfl⟩
    exact ⟨sound.cache.of_eq rfl rfl, stocked⟩

theorem safeIn_count (change : CacheCounts → CacheCounts)
    : SafeIn home others (count change) fun _ => True := by
  intro shop sound
  simp only [count, changeCache, ends_modify]
  exact ⟨⟨sound.cache.of_eq rfl rfl, sound.stocked.of_host rfl rfl sound.stocked.host⟩, trivial⟩

/-- Seeing to it that there is an artifact for a proper unit is safe. -/
theorem safeIn_provide {unit : SourceUnit} (proper : unit.Proper)
    : SafeIn home others (provide unit) fun _ => True := by
  intro shop sound
  simp only [provide, ends_bind, ends_get]
  split
  · exact safeIn_count _ shop sound
  · exact ((safeIn_compile proper).bind fun _ _ => safeIn_count _) shop sound

/-- A request for a proper unit is safe and gives a kernel that implements it, wherever the kernel
comes from.
-/
theorem safeIn_request {unit : SourceUnit} (proper : unit.Proper)
    : SafeIn home others (request unit) fun kernel => kernel.Implements unit := by
  intro shop sound
  simp only [request, ends_bind, ends_get]
  split
  · next kernel found =>
      have implements := sound.cache.kernels unit proper kernel found
      simp only [ends_bind]
      refine (safeIn_count _ shop sound).mono ?_ (fun _ _ sound => sound)
      exact fun _ final kept => ⟨kept.1, implements⟩
  · refine (safeIn_provide proper).bind (fun _ _ => (safeIn_load proper).bind ?_) shop sound
    intro kernel implements middle kept
    simp only [changeCache, ends_bind, ends_modify, ends_pure]
    exact ⟨⟨kept.cache.add proper implements, kept.stocked.of_host rfl rfl kept.stocked.host⟩,
      implements⟩

end

/-- A request for a proper unit is safe on the whole disk. -/
theorem safe_request {unit : SourceUnit} (proper : unit.Proper)
    : Safe (request unit) fun kernel => kernel.Implements unit :=
  safeIn_nil.mp (safeIn_request proper)

/-- Preparing a task that fits is safe and gives the task with a kernel that implements its unit.
-/
theorem safe_prepareTask {task : Task} (fits : ∃ program, task.Fits program)
    : Safe (prepareTask task) fun step =>
        step.task = task
        ∧ ∃ program, step.task.Fits program ∧ step.kernel.Implements (step.task.unit program) := by
  obtain ⟨program, fits⟩ := fits
  intro shop sound
  simp only [prepareTask, fits.render_eq, ends_bind]
  refine (safe_request ⟨task, program, fits, rfl⟩ shop sound).mono ?_ (fun _ _ sound => sound)
  exact fun _ _ kept => ⟨kept.1, rfl, program, fits, kept.2⟩

/-- What holds before and after the kernel of each task is made holds when the kernels of a
schedule are made, and all the steps are good, by induction on the schedule.
-/
theorem prepare_ends {schedule : Schedule} {holds : Workshop → Prop} {good : PlanStep → Prop}
    {failed : EngineError → Workshop → Prop}
    (each
      : ∀ task ∈ schedule, ∀ shop, holds shop →
          Ends (prepareTask task) shop
            (fun step final => holds final ∧ step.task = task ∧ good step) failed)
    (shop : Workshop) (held : holds shop)
    : Ends (prepare schedule) shop
        (fun plan final =>
          holds final ∧ plan.map PlanStep.task = schedule ∧ ∀ step ∈ plan, good step)
        failed := by
  unfold prepare
  induction schedule generalizing shop with
  | nil => exact ⟨held, rfl, by simp⟩
  | cons task rest ih =>
      obtain ⟨first, others⟩ := List.forall_mem_cons.mp each
      rw [List.mapM_cons, ends_bind]
      refine (first shop held).mono ?_ (fun _ _ failure => failure)
      rintro step middle ⟨kept, rfl, fine⟩
      rw [ends_bind]
      refine (ih others middle kept).mono ?_ (fun _ _ failure => failure)
      rintro plan final ⟨kept, rfl, rests⟩
      exact ⟨kept, rfl, List.forall_mem_cons.mpr ⟨fine, rests⟩⟩

/-- Preparing a schedule of tasks that fit is safe and gives its tasks in order, each with a kernel
that implements its unit.
-/
theorem safe_prepare {schedule : Schedule} (fits : ∀ task ∈ schedule, ∃ program, task.Fits program)
    : Safe (prepare schedule) fun plan =>
        plan.map PlanStep.task = schedule
        ∧ ∀ step ∈ plan,
            ∃ program, step.task.Fits program ∧ step.kernel.Implements (step.task.unit program) := by
  intro shop sound
  exact prepare_ends (fun task member shop sound => safe_prepareTask (fits task member) shop sound) shop
    sound

end Workshop

end LazyTensor
