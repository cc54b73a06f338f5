import LazyTensor.Proofs.Engine.Scratch

/-! What a request can do. It is served from memory, from an artifact on disk or by the compiler,
and it fails while compiling or while loading. For each of these ways it is said once what
changes; nothing else ever changes.
-/

namespace LazyTensor

/-- From where a request is served. -/
inductive Route where
  | memory
  | disk
  | compiler
deriving DecidableEq, Repr

namespace CacheCounts

/-- One more request was served from memory. -/
def hit (counts : CacheCounts) : CacheCounts := { counts with hits := counts.hits + 1 }

/-- One more request was served from an artifact. -/
def diskHit (counts : CacheCounts) : CacheCounts := { counts with diskHits := counts.diskHits + 1 }

/-- One more request was served by compiling. -/
def compiled (counts : CacheCounts) : CacheCounts :=
  { counts with compilations := counts.compilations + 1 }

/-- All requests that were counted. -/
def total (counts : CacheCounts) : Nat := counts.hits + counts.diskHits + counts.compilations

end CacheCounts

/-- No failure comes from compiling and from loading. -/
theorem EngineError.not_ofCompiling {cause : EngineError} (loading : cause.ofLoading)
    : cause.ofCompiling = false := by
  cases cause <;> first | rfl | cases loading

/-- Whether a request that ended so failed while compiling. -/
def failsCompiling : Except EngineError Executable → Bool
  | .ok _ => false
  | .error cause => cause.ofCompiling

namespace Workshop

/-- From where a request for a kernel of some name is served. -/
def route (shop : Workshop) (name : String) : Route :=
  if (shop.cache.find? name).isSome then .memory
  else if !shop.cache.recompile
      && (shop.host.artifact? shop.cache.place (artifactFile name)).isSome then .disk
  else .compiler

/-- The workshop with a kernel in memory. -/
def remembering (shop : Workshop) (name : String) (kernel : Executable) : Workshop :=
  { shop with cache := { shop.cache with kernels := shop.cache.kernels ++ [(name, kernel)] } }

/-- An artifact for a unit was found on disk or made, and the request was counted. -/
inductive Provided (unit : SourceUnit) (shop : Workshop) : Workshop → Prop where
  | found (reused : shop.route unit.name = .disk)
    : Provided unit shop (shop.counting CacheCounts.diskHit)
  | made {final : Workshop} (missing : shop.route unit.name = .compiler) (artifact : KernelFile)
      (tried : Tried [(artifactFile unit.name, artifact), stored unit] shop final)
    : Provided unit shop (final.counting CacheCounts.compiled)

/-- The ways in which a request ends. -/
inductive Served (unit : SourceUnit) (shop : Workshop) : Except EngineError Executable → Workshop → Prop
    where
  | remembered {kernel : Executable} (found : shop.cache.find? unit.name = some kernel)
    : Served unit shop (.ok kernel) (shop.counting CacheCounts.hit)
  | unmade {cause : EngineError} {final : Workshop} {files : List (String × KernelFile)}
      (missing : shop.route unit.name = .compiler) (kind : cause.ofCompiling)
      (few : files ⊆ [stored unit]) (tried : Tried files shop final)
    : Served unit shop (.error cause) final
  | unloaded {cause : EngineError} {provided : Workshop} (calls : Nat)
      (had : Provided unit shop provided) (kind : cause.ofLoading)
      (present
        : (provided.host.artifact? provided.cache.place (artifactFile unit.name)).isSome)
    : Served unit shop (.error cause) (provided.afterOpening calls)
  | loaded {provided : Workshop} {library : Library} {code : Kernel.Routine}
      (had : Provided unit shop provided)
      (opened
        : provided.host.library? provided.cache.place (artifactFile unit.name) = some library)
      (offered
        : provided.cache.toolchain.load provided.cache.loaderCalls library.artifact unit.name
          = .ok code)
    : Served unit shop (.ok ⟨unit.name, unit.dtype, unit.arity, code, library.file⟩)
        (({ provided.afterOpening 1 with host := provided.host.withOpen library }).remembering
          unit.name ⟨unit.name, unit.dtype, unit.arity, code, library.file⟩)

variable {shop : Workshop}

/-- What is not served from memory is not there. -/
theorem find?_eq_none_of_route {name : String} {way : Route} (served : shop.route name = way)
    (away : way ≠ .memory)
    : shop.cache.find? name = none := by
  subst served
  cases found : shop.cache.find? name with
  | none => rfl
  | some kernel => exact absurd (by simp [route, found]) away

/-- What is not in memory is served from an artifact that counts. -/
theorem route_eq_disk {name : String} (new : shop.cache.find? name = none)
    (counts : shop.cache.recompile = false)
    (present : (shop.host.artifact? shop.cache.place (artifactFile name)).isSome)
    : shop.route name = .disk := by
  rw [route, new, counts, present]
  rfl

/-- Seeing to it that there is an artifact ends with one or fails while compiling. -/
theorem provide_ends (unit : SourceUnit) (shop : Workshop) (new : shop.cache.find? unit.name = none)
    : Ends (provide unit) shop
        (fun _ final =>
          Provided unit shop final
          ∧ (final.host.artifact? final.cache.place (artifactFile unit.name)).isSome)
        (fun cause final => Served unit shop (.error cause) final) := by
  simp only [provide, count, changeCache, ends_bind, ends_get, ends_ite, ends_modify]
  split
  · next reused =>
      obtain ⟨counts, present⟩ := (Bool.and_eq_true _ _).mp reused
      exact ⟨.found (route_eq_disk new (Bool.not_eq_true' _ |>.mp counts) present), present⟩
  · next missing =>
      have route : shop.route unit.name = .compiler := by simp [route, new, missing]
      refine (compile_ends unit shop).mono ?_ ?_
      · rintro _ final ⟨⟨artifact, tried⟩, present⟩
        exact ⟨.made route artifact tried, present⟩
      · rintro cause final ⟨kind, files, few, tried⟩
        exact .unmade route kind few tried

/-- Every request ends in one of these ways. -/
theorem served_request (unit : SourceUnit) (shop : Workshop)
    : Served unit shop (outcome (request unit) shop).1 (outcome (request unit) shop).2 := by
  refine Ends.holds ?_
  simp only [request, ends_bind, ends_get]
  split
  · next kernel found => exact .remembered found
  · next new =>
      simp only [changeCache, ends_bind, ends_modify, ends_pure]
      refine (provide_ends unit shop new).mono ?_ (fun _ _ failed => failed)
      rintro _ provided ⟨had, present⟩
      refine (load_ends unit provided).mono ?_ ?_
      · rintro _ _ ⟨library, code, opened, offered, rfl, rfl⟩
        exact .loaded had opened offered
      · rintro cause _ ⟨kind, calls, rfl⟩
        exact .unloaded calls had kind present

/-- Finding or making an artifact is for kernels that are not in memory. It calls the compiler at most
once and counts the request once; of the cache nothing else changes.
-/
theorem Provided.cache {unit : SourceUnit} {final : Workshop} (had : Provided unit shop final)
    : shop.cache.find? unit.name = none
      ∧ ∃ calls ≤ 1, ∃ change,
          (change = CacheCounts.diskHit ∨ change = CacheCounts.compiled)
          ∧ final.cache = ((shop.afterCalls calls).counting change).cache := by
  cases had with
  | found reused =>
      exact ⟨find?_eq_none_of_route reused (by decide), 0, Nat.zero_le _, _, Or.inl rfl, rfl⟩
  | made missing artifact tried =>
      obtain ⟨calls, few, same⟩ := tried.cache
      refine ⟨find?_eq_none_of_route missing (by decide), calls, few, _, Or.inr rfl, ?_⟩
      exact congrArg (fun cache : Cache => { cache with counts := cache.counts.compiled }) same

theorem Provided.alike {unit : SourceUnit} {final : Workshop} (had : Provided unit shop final)
    : shop.cache.Alike final.cache := by
  obtain ⟨_, _, _, _, _, same⟩ := had.cache
  rw [same]
  exact ⟨rfl, rfl, rfl, rfl⟩

section

variable {unit : SourceUnit} {result : Except EngineError Executable} {final : Workshop}

/-- A request gives the kernel in memory, or there was none and the one that it gives is added. A
request that fails adds none.
-/
theorem Served.kernels (served : Served unit shop result final)
    : (∃ kernel,
          result = .ok kernel
          ∧ shop.cache.find? unit.name = some kernel
          ∧ final.cache.kernels = shop.cache.kernels)
      ∨ (∃ kernel,
          result = .ok kernel
          ∧ shop.cache.find? unit.name = none
          ∧ final.cache.kernels = shop.cache.kernels ++ [(unit.name, kernel)])
      ∨ ∃ cause,
          result = .error cause
          ∧ shop.cache.find? unit.name = none
          ∧ final.cache.kernels = shop.cache.kernels := by
  cases served with
  | remembered found => exact Or.inl ⟨_, rfl, found, rfl⟩
  | unmade missing kind few tried =>
      have new := find?_eq_none_of_route missing (by decide)
      exact Or.inr (Or.inr ⟨_, rfl, new, tried.alike.kernels⟩)
  | unloaded calls had kind present =>
      have kept := had.alike.kernels
      exact Or.inr (Or.inr ⟨_, rfl, had.cache.1, kept⟩)
  | loaded had opened offered =>
      exact Or.inr (Or.inl ⟨_, rfl, had.cache.1, congrArg (· ++ _) had.alike.kernels⟩)

/-- A request is counted unless it fails while compiling. -/
theorem Served.total (served : Served unit shop result final)
    : final.cache.counts.total
      = shop.cache.counts.total
        + if failsCompiling result then 0 else 1 := by
  have counted {provided : Workshop} (had : Provided unit shop provided)
      : provided.cache.counts.total = shop.cache.counts.total + 1 := by
    obtain ⟨_, calls, _, change, either, same⟩ := had.cache
    rw [same]
    change (change shop.cache.counts).total = _
    rcases either with rfl | rfl
    · simp only [CacheCounts.total, CacheCounts.diskHit]
      omega
    · simp only [CacheCounts.total, CacheCounts.compiled]
      omega
  cases served with
  | remembered found =>
      simp only [counting, CacheCounts.total, CacheCounts.hit, failsCompiling, Bool.false_eq_true,
        if_false]
      omega
  | unmade missing kind few tried =>
      obtain ⟨calls, _, same⟩ := tried.cache
      rw [same, failsCompiling, if_pos kind]
      rfl
  | @unloaded cause provided calls had kind present =>
      rw [failsCompiling, EngineError.not_ofCompiling kind]
      have once := counted had
      exact once
  | @loaded provided library code had opened offered =>
      have once := counted had
      exact once

/-- A request calls the compiler at most once, and not at all if the kernel is in memory. -/
theorem Served.calls (served : Served unit shop result final)
    : shop.cache.compilerCalls ≤ final.cache.compilerCalls
      ∧ final.cache.compilerCalls
        ≤ shop.cache.compilerCalls + (if (shop.cache.find? unit.name).isSome then 0 else 1) := by
  have called {provided : Workshop} (had : Provided unit shop provided)
      : shop.cache.compilerCalls ≤ provided.cache.compilerCalls
        ∧ provided.cache.compilerCalls
          ≤ shop.cache.compilerCalls + (if (shop.cache.find? unit.name).isSome then 0 else 1) := by
    obtain ⟨new, calls, few, change, _, same⟩ := had.cache
    rw [same, new]
    exact ⟨Nat.le_add_right _ _, Nat.add_le_add_left few _⟩
  cases served with
  | remembered found =>
      rw [found]
      exact ⟨Nat.le_refl _, Nat.le_refl _⟩
  | unmade missing kind few tried =>
      obtain ⟨calls, few, same⟩ := tried.cache
      rw [same, find?_eq_none_of_route missing (by decide)]
      exact ⟨Nat.le_add_right _ _, Nat.add_le_add_left few _⟩
  | unloaded calls had kind present =>
      have few := called had
      exact few
  | loaded had opened offered =>
      have few := called had
      exact few

end

/-- A kernel without loops, for samples. -/
def sampleUnit : SourceUnit :=
  ⟨"idle", "#include <math.h>\n\nvoid idle(float* restrict out) \x7b\n\x7d\n", 0, .float32⟩

end Workshop

end LazyTensor
