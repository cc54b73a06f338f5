import LazyTensor.Proofs.Engine.Cache
import LazyTensor.Proofs.Engine.Serving

/-! Kernels of the right signature. Kernels are kept in memory by name alone, but the name says
which element type and how many sources a kernel takes. So a kernel that is found in memory can be
called like the one that was asked for, whatever was asked for before, and requests for it fail
outside if at all.
-/

namespace LazyTensor

/-- The failures of compilers, loaders and file systems. -/
def EngineError.ofOutside : EngineError → Bool
  | compilation .. | notStarted .. | fileAccess .. | unreadableArtifact .. | missingSymbol .. => true
  | _ => false

theorem EngineError.ofOutside_of_ofCompiling {cause : EngineError} (compiling : cause.ofCompiling)
    : cause.ofOutside := by
  cases cause <;> first | rfl | cases compiling

/-- A kernel of the element type and the arity of a unit. -/
structure Executable.Suits (kernel : Executable) (unit : SourceUnit) : Prop where
  dtype : kernel.dtype = unit.dtype
  arity : kernel.arity = unit.arity

/-- Kernels in memory suit the units of their names. -/
def Cache.Suits (cache : Cache) : Prop :=
  ∀ unit : SourceUnit, unit.Proper → ∀ kernel,
    cache.find? unit.name = some kernel → kernel.Suits unit

/-- A unit that some desk can ask for: the kernel of a task of a schedule. -/
def SourceUnit.Scheduled (unit : SourceUnit) : Prop :=
  ∃ desk : Desk,
    desk.Reachable
    ∧ ∃ buffer ∈ desk.buffers, ∃ schedule,
        (desk.workspace.graph buffer.graph).schedule buffer.node = .ok schedule
        ∧ ∃ task ∈ schedule, task.render = .ok unit

theorem SourceUnit.Scheduled.proper {unit : SourceUnit} (scheduled : unit.Scheduled) : unit.Proper := by
  obtain ⟨desk, reached, buffer, held, schedule, made, task, member, rendered⟩ := scheduled
  obtain ⟨program, fits⟩ := reached.wellFormed.task_fits held made member
  exact ⟨task, program, fits, Except.ok.inj (rendered.symm.trans fits.render_eq)⟩

/-- No kernel takes more sources than kernels can be called with. -/
theorem SourceUnit.Proper.arity_le {unit : SourceUnit} (proper : unit.Proper)
    : unit.arity ≤ Workshop.maximalArity := by
  obtain ⟨task, program, fits, rfl⟩ := proper
  change task.sources.length ≤ 2
  have runs := fits.runs
  cases runs <;> simp

namespace Workshop

variable {unit : SourceUnit} {shop final : Workshop} {result : Except EngineError Executable}

/-- A request for a proper unit gives a kernel that suits the unit, and all kernels in memory suit
their names as before.
-/
theorem Served.suits (served : Served unit shop result final) (proper : unit.Proper)
    (suits : shop.cache.Suits)
    : final.cache.Suits ∧ ∀ kernel, result = .ok kernel → kernel.Suits unit := by
  have same {cache : Cache} (kernels : cache.kernels = shop.cache.kernels) : cache.Suits := by
    intro other otherProper kernel found
    rw [Cache.find?, kernels] at found
    exact suits other otherProper kernel found
  cases served with
  | remembered found =>
      refine ⟨same rfl, fun kernel given => ?_⟩
      obtain rfl := Except.ok.inj given
      exact suits unit proper _ found
  | unmade missing kind few tried =>
      exact ⟨same tried.alike.kernels, fun kernel given => by cases given⟩
  | unloaded calls had kind present =>
      have kernels := had.alike.kernels
      exact ⟨same kernels, fun kernel given => by cases given⟩
  | @loaded provided library code had opened offered =>
      refine ⟨?_, fun kernel given => Except.ok.inj given ▸ ⟨rfl, rfl⟩⟩
      intro other otherProper kernel found
      change (provided.cache.kernels ++ _).lookup other.name = some kernel at found
      rw [List.lookup_append, Option.or_eq_some_iff] at found
      rcases found with old | ⟨_, new⟩
      · exact same had.alike.kernels other otherProper kernel old
      · rw [List.lookup_cons] at new
        split at new
        · next named =>
            -- The name that was asked for fixes the unit, and so the signature.
            obtain rfl := otherProper.eq_of_name proper (beq_iff_eq.mp named)
            exact Option.some.inj new ▸ ⟨rfl, rfl⟩
        · cases new

/-- A request for a unit of few enough sources fails outside if at all. -/
theorem request_fails (few : unit.arity ≤ maximalArity) (shop : Workshop)
    : Ends (request unit) shop (fun _ _ => True) (fun cause _ => cause.ofOutside) := by
  have loads (shop : Workshop)
      : Ends (load unit) shop (fun _ _ => True) (fun cause _ => cause.ofOutside) := by
    simp only [load, changeCache, ends_bind, ends_get, ends_modify, if_neg (Nat.not_lt.mpr few)]
    split
    · rfl
    · split
      · trivial
      · rfl
      · rfl
  have provides (shop : Workshop)
      : Ends (provide unit) shop (fun _ _ => True) (fun cause _ => cause.ofOutside) := by
    simp only [provide, count, changeCache, ends_bind, ends_get, ends_ite, ends_modify]
    split
    · trivial
    · exact (compile_ends unit shop).mono (fun _ _ _ => trivial) fun _ _ failed =>
        EngineError.ofOutside_of_ofCompiling failed.1
  simp only [request, ends_bind, ends_get]
  split
  · trivial
  · simp only [changeCache, ends_bind, ends_modify, ends_pure]
    refine (provides shop).mono (fun _ middle _ => ?_) fun _ _ outside => outside
    exact (loads middle).mono (fun _ _ _ => trivial) fun _ _ outside => outside

/-- Making the kernel of a task that fits gives one that takes the sources of the task or fails
outside.
-/
theorem prepareTask_suits {task : Task} (fits : ∃ program, task.Fits program) (shop : Workshop)
    (suits : shop.cache.Suits)
    : Ends (prepareTask task) shop
        (fun step final =>
          final.cache.Suits
          ∧ step.task = task
          ∧ step.kernel.dtype = step.task.target.dtype
          ∧ step.kernel.arity = step.task.sources.length)
        (fun cause _ => cause.ofOutside) := by
  obtain ⟨program, fits⟩ := fits
  have proper : (task.unit program).Proper := ⟨task, program, fits, rfl⟩
  simp only [prepareTask, fits.render_eq, ends_bind, ends_pure]
  have served := served_request (task.unit program) shop
  have suited := served.suits proper suits
  have ends := request_fails proper.arity_le shop
  unfold Ends at ends ⊢
  generalize outcome (request (task.unit program)) shop = ran at ends suited
  obtain ⟨cause | kernel, final⟩ := ran
  · exact ends
  · obtain ⟨kept, suit⟩ := suited
    exact ⟨kept, trivial, (suit kernel rfl).dtype, (suit kernel rfl).arity⟩

end Workshop

/-- All kernels that a cache was asked for suit their names if only kernels of tasks were asked
for, by induction on the history.
-/
theorem Cache.History.suits {settings : Settings} {log : List Service} {cache : Cache}
    (history : History settings log cache) (asked : ∀ service ∈ log, service.unit.Scheduled)
    : cache.Suits := by
  induction history with
  | start toolchain => exact fun _ _ _ found => by cases found
  | @request log cache earlier unit toolchain host ih =>
      obtain ⟨before, last⟩ := List.forall_mem_append.mp asked
      have proper := (last _ (List.mem_singleton_self _)).proper
      exact ((Service.served _).suits proper (ih before)).1

end LazyTensor
