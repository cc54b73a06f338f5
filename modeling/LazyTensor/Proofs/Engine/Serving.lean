import LazyTensor.Proofs.Engine.Request
import Mathlib.Algebra.GroupWithZero.Nat
import Mathlib.Data.List.Dedup

/-! Caches in use. A cache is asked for kernels again and again while files and compilers behave
as they like. A kernel that was given once is given ever after, without a look at anything but the
memory, and the counts of the cache tell how its requests were served.
-/

namespace LazyTensor

/-- A request for a unit, in the state in which it is made. -/
structure Service where
  unit : SourceUnit
  before : Workshop

namespace Service

/-- What the request is answered with. -/
def result (service : Service) : Except EngineError Executable :=
  (outcome (Workshop.request service.unit) service.before).1

/-- The state that the request leaves. -/
def after (service : Service) : Workshop :=
  (outcome (Workshop.request service.unit) service.before).2

/-- The request is for a name and is answered with a kernel. -/
def Answers (service : Service) (name : String) (kernel : Executable) : Prop :=
  service.unit.name = name ∧ service.result = .ok kernel

/-- Whether the request fails. -/
def failed (service : Service) : Bool :=
  match service.result with
  | .ok _ => false
  | .error _ => true

/-- How often the request calls the compiler. -/
def calls (service : Service) : Nat :=
  service.after.cache.compilerCalls - service.before.cache.compilerCalls

end Service

namespace Cache

/-- A cache from its start through a list of requests. Between two requests anything may happen to the
host, and the toolchain may change its ways.
-/
inductive History (settings : Settings) : List Service → Cache → Prop where
  | start (toolchain : Toolchain) : History settings [] (.start settings toolchain)
  | request {log : List Service} {cache : Cache} (earlier : History settings log cache)
      (unit : SourceUnit) (toolchain : Toolchain) (host : Host)
    : History settings (log ++ [⟨unit, { cache with toolchain }, host⟩])
        (Service.after ⟨unit, { cache with toolchain }, host⟩).cache

/-- The requests of a log for a name. -/
def requestsFor (log : List Service) (name : String) : List Service :=
  log.filter (·.unit.name == name)

/-- What a log of requests says about a cache. Its kernels are those that were given, its counts
add up to the requests that did not fail while compiling, and each call of the compiler was
followed by a failure or by the kernel.
-/
structure Accounts (log : List Service) (cache : Cache) : Prop where
  found
    : ∀ name kernel,
        cache.find? name = some kernel ↔ ∃ service ∈ log, service.Answers name kernel
  single : (cache.kernels.map (·.1)).Nodup
  counts : cache.counts.total = log.countP (!failsCompiling ·.result)
  calls
    : ∀ name,
        ((requestsFor log name).map Service.calls).sum
        ≤ (requestsFor log name).countP (·.failed) + (cache.find? name).toList.length

end Cache

namespace Workshop

variable {shop final : Workshop} {unit : SourceUnit} {result : Except EngineError Executable}

/-- A request for a kernel in memory counts a hit and does nothing else, whatever host and toolchain
are.
-/
theorem outcome_request_of_find? {kernel : Executable}
    (found : shop.cache.find? unit.name = some kernel)
    : outcome (request unit) shop = (.ok kernel, shop.counting CacheCounts.hit) := by
  refine outcome_eq_ok ?_
  simp only [request, count, changeCache, ends_bind, ends_get, ends_modify, found]
  exact ⟨rfl, rfl⟩

end Workshop

namespace Service

variable {service : Service}

theorem served (service : Service)
    : Workshop.Served service.unit service.before service.result service.after :=
  Workshop.served_request service.unit service.before

/-- After a request those kernels are in memory that were there before, and the one that is given. -/
theorem find?_after (service : Service) (name : String) (kernel : Executable)
    : service.after.cache.find? name = some kernel
      ↔ service.before.cache.find? name = some kernel ∨ service.Answers name kernel := by
  unfold Answers
  rcases service.served.kernels with
    ⟨known, given, found, same⟩ | ⟨known, given, new, same⟩ | ⟨cause, given, new, same⟩
  · rw [given, Cache.find?, same, ← Cache.find?]
    refine ⟨Or.inl, ?_⟩
    rintro (old | ⟨rfl, answered⟩)
    · exact old
    · exact found.trans (congrArg some (Except.ok.inj answered))
  · have grown
        : service.after.cache.find? name
          = (service.before.cache.find? name).or (List.lookup name [(service.unit.name, known)]) := by
      rw [Cache.find?, same, List.lookup_append, ← Cache.find?]
    by_cases named : name = service.unit.name
    · subst named
      simp [given, grown, new]
    · simp [grown, List.lookup_cons, beq_eq_false_iff_ne.mpr named, Ne.symm named]
  · simp only [given, Cache.find?, same, reduceCtorEq, and_false, or_false]

/-- A request changes nothing about the kernels of other names. -/
theorem find?_after_of_ne {name : String} (other : service.unit.name ≠ name)
    : service.after.cache.find? name = service.before.cache.find? name := by
  refine Option.ext fun kernel => ?_
  rw [service.find?_after name kernel]
  exact ⟨fun known => known.resolve_right fun answers => other answers.1, Or.inl⟩

/-- A call of the compiler is followed by a failure or by the kernel. -/
theorem calls_le (service : Service)
    : service.calls + (service.before.cache.find? service.unit.name).toList.length
      ≤ (if service.failed then 1 else 0)
        + (service.after.cache.find? service.unit.name).toList.length := by
  have after := service.find?_after service.unit.name
  obtain ⟨_, few⟩ := service.served.calls
  unfold calls failed Answers at *
  rcases service.served.kernels with
    ⟨known, given, found, _⟩ | ⟨known, given, new, _⟩ | ⟨cause, given, new, _⟩
  · rw [found] at few
    rw [found, (after known).mpr (Or.inl found)]
    simp only [Option.isSome_some, if_true, Option.toList_some, List.length_singleton] at few ⊢
    omega
  · rw [new] at few
    rw [new, (after known).mpr (Or.inr ⟨rfl, given⟩)]
    simp only [Option.isSome_none, Bool.false_eq_true, if_false, Option.toList_none,
      Option.toList_some, List.length_singleton, List.length_nil] at few ⊢
    omega
  · rw [new] at few
    rw [new, given]
    simp only [Option.isSome_none, Bool.false_eq_true, if_false, if_true, Option.toList_none,
      List.length_nil] at few ⊢
    omega

end Service

namespace Cache

variable {log : List Service} {cache : Cache} {service : Service}

theorem requestsFor_append (log : List Service) (service : Service) (name : String)
    : requestsFor (log ++ [service]) name
      = requestsFor log name ++ if service.unit.name = name then [service] else [] := by
  simp [requestsFor, List.filter_cons]

theorem accounts_start (settings : Settings) (toolchain : Toolchain)
    : Accounts [] (.start settings toolchain) where
  found := by simp [start, find?]
  single := List.nodup_nil
  counts := rfl
  calls := fun _ => Nat.zero_le _

/-- Another request is accounted for like those before it. -/
theorem Accounts.request (accounts : Accounts log cache)
    (kernels : service.before.cache.kernels = cache.kernels)
    (counts : service.before.cache.counts = cache.counts)
    : Accounts (log ++ [service]) service.after.cache where
  found := by
    intro name kernel
    rw [service.find?_after, find?, kernels, ← find?, accounts.found]
    simp [or_and_right, exists_or]
  single := by
    rcases service.served.kernels with ⟨_, _, _, same⟩ | ⟨_, _, new, same⟩ | ⟨_, _, _, same⟩
    · rw [same, kernels]
      exact accounts.single
    · rw [same, kernels, List.map_append, List.map_singleton, List.nodup_append]
      rw [find?, List.lookup_eq_none_iff, kernels] at new
      refine ⟨accounts.single, by simp, ?_⟩
      intro name member other last
      obtain ⟨entry, within, rfl⟩ := List.mem_map.mp member
      rw [List.mem_singleton.mp last]
      exact (bne_iff_ne.mp (new entry within)).symm
    · rw [same, kernels]
      exact accounts.single
  counts := by
    rw [service.served.total, counts, accounts.counts, List.countP_append, List.countP_singleton]
    cases failsCompiling service.result <;> rfl
  calls := by
    intro name
    have before : service.before.cache.find? name = cache.find? name := by
      rw [find?, kernels, ← find?]
    have fewer := accounts.calls name
    rw [requestsFor_append]
    by_cases named : service.unit.name = name
    · subst named
      have few := service.calls_le
      rw [before] at few
      rw [if_pos rfl, List.map_append, List.sum_append, List.countP_append, List.countP_singleton,
        List.map_singleton, List.sum_singleton]
      omega
    · rw [if_neg named, List.append_nil, Service.find?_after_of_ne named, before]
      exact fewer

/-- Every request of a history is accounted for, by induction on the history. -/
theorem History.accounts {settings : Settings} (history : History settings log cache)
    : Accounts log cache := by
  induction history with
  | start toolchain => exact accounts_start settings toolchain
  | request earlier unit toolchain host ih => exact ih.request rfl rfl

/-- Kernels that were in memory before or after a request of a history are in memory still, by
induction on the history.
-/
theorem History.find? {settings : Settings} (history : History settings log cache)
    : ∀ service ∈ log, ∀ name kernel,
        service.before.cache.find? name = some kernel
          ∨ service.after.cache.find? name = some kernel →
        cache.find? name = some kernel := by
  induction history with
  | start toolchain => simp
  | @request log cache earlier unit toolchain host ih =>
      have grows (service : Service) (name : String) (kernel : Executable)
          (known : service.before.cache.find? name = some kernel)
          : service.after.cache.find? name = some kernel :=
        (service.find?_after name kernel).mpr (Or.inl known)
      intro service member name kernel known
      rcases List.mem_append.mp member with old | new
      · exact grows _ name kernel (ih service old name kernel known)
      · obtain rfl := List.mem_singleton.mp new
        exact known.elim (grows _ name kernel) id

/-- A kernel that was given is in memory when its name is asked for again, by induction on the
history.
-/
theorem History.again {settings : Settings} (history : History settings log cache)
    : log.Pairwise fun earlier later =>
        ∀ kernel,
          earlier.Answers later.unit.name kernel →
            later.before.cache.find? later.unit.name = some kernel := by
  induction history with
  | start toolchain => exact .nil
  | request earlier unit toolchain host ih =>
      refine List.pairwise_append.mpr ⟨ih, List.pairwise_singleton _ _, ?_⟩
      intro service member later last kernel answers
      obtain rfl := List.mem_singleton.mp last
      exact (earlier.accounts.found unit.name kernel).mpr ⟨service, member, answers⟩

theorem mem_names {name : String}
    : name ∈ cache.kernels.map (·.1) ↔ ∃ kernel, cache.find? name = some kernel := by
  rw [← Option.ne_none_iff_exists', find?, ne_eq, List.lookup_eq_none_iff, List.mem_map]
  simp only [bne_iff_ne, ne_eq, not_forall, not_not, exists_prop]
  exact exists_congr fun entry => and_congr_right fun _ => eq_comm

/-- The kernels in memory have the names for which a request was answered, each once. -/
theorem Accounts.size_eq (accounts : Accounts log cache)
    : cache.size = ((log.filter (!·.failed)).map (·.unit.name)).dedup.length := by
  have names
      : (cache.kernels.map (·.1)).Perm ((log.filter (!·.failed)).map (·.unit.name)).dedup := by
    refine (List.perm_ext_iff_of_nodup accounts.single (List.nodup_dedup _)).mpr fun name => ?_
    rw [mem_names, List.mem_dedup, List.mem_map]
    constructor
    · rintro ⟨kernel, found⟩
      obtain ⟨service, member, named, answered⟩ := (accounts.found name kernel).mp found
      exact ⟨service, List.mem_filter.mpr ⟨member, by simp [Service.failed, answered]⟩, named⟩
    · rintro ⟨service, kept, named⟩
      obtain ⟨member, answered⟩ := List.mem_filter.mp kept
      cases given : service.result with
      | error cause => simp [Service.failed, given] at answered
      | ok kernel => exact ⟨kernel, (accounts.found name kernel).mpr ⟨service, member, named, given⟩⟩
  rw [size, ← names.length_eq, List.length_map]

/-- However files and compilers behave, over the whole history of a cache the following holds.
After a request was answered with a kernel, every later one for the name is answered with the same
kernel whatever toolchain and host are, counts a hit and changes nothing else. What was in memory
before or after some request stays there. There are as many kernels as names for which a request
was answered. The counts add up to the requests that did not fail while compiling. And for every
name the compiler was called at most once more than requests failed.
-/
theorem History.requests_accounted {settings : Settings} (history : History settings log cache)
    : (log.Pairwise fun earlier later =>
        ∀ kernel,
          earlier.Answers later.unit.name kernel →
            later.result = .ok kernel
            ∧ later.after = later.before.counting CacheCounts.hit
            ∧ ∀ (toolchain : Toolchain) (host : Host),
                outcome (Workshop.request later.unit) ⟨{ later.before.cache with toolchain }, host⟩
                  = (.ok kernel,
                      Workshop.counting ⟨{ later.before.cache with toolchain }, host⟩
                        CacheCounts.hit))
      ∧ (∀ service ∈ log, ∀ name kernel,
          service.before.cache.find? name = some kernel
            ∨ service.after.cache.find? name = some kernel →
          cache.find? name = some kernel)
      ∧ cache.size = ((log.filter (!·.failed)).map (·.unit.name)).dedup.length
      ∧ cache.counts.total = log.countP (!failsCompiling ·.result)
      ∧ ∀ name,
          ((requestsFor log name).map Service.calls).sum
          ≤ (requestsFor log name).countP (·.failed) + 1 := by
  have accounts := history.accounts
  refine ⟨?_, history.find?, accounts.size_eq, accounts.counts, ?_⟩
  · refine history.again.imp fun {earlier later} again kernel answers => ?_
    have found := again kernel answers
    have given := Workshop.outcome_request_of_find? found
    exact ⟨congrArg Prod.fst given, congrArg Prod.snd given, fun toolchain host =>
      Workshop.outcome_request_of_find? found⟩
  · intro name
    have most : (cache.find? name).toList.length ≤ 1 := by
      cases cache.find? name <;> simp
    have fewer := accounts.calls name
    omega

/-- A request with a compiler that rejects its first call. -/
def sampleFirst : Service :=
  ⟨Workshop.sampleUnit, start ⟨"cc", "-O2", "kernels", false⟩ (.simulated "cc" .working 1), .start⟩

/-- The request once more, from where the first one ended. -/
def sampleSecond : Service := ⟨Workshop.sampleUnit, sampleFirst.after⟩

/-- The request a third time, when all files are gone. -/
def sampleThird : Service := ⟨Workshop.sampleUnit, sampleSecond.after.cache, .start⟩

theorem history_sample
    : History ⟨"cc", "-O2", "kernels", false⟩ [sampleFirst, sampleSecond, sampleThird]
        sampleThird.after.cache :=
  .request (.request (.request (.start sampleFirst.before.cache.toolchain) _ _ _) _ _ _) _ _ _

theorem result_sample : sampleFirst.failed = true ∧ sampleSecond.result.isOk = true := by
  decide +kernel

/-- The third request of the sample gets the kernel of the second, without a file. -/
theorem requests_accounted_sample
    : ∃ kernel,
        History ⟨"cc", "-O2", "kernels", false⟩ [sampleFirst, sampleSecond, sampleThird]
            sampleThird.after.cache
        ∧ sampleFirst.failed = true
        ∧ sampleSecond.Answers sampleThird.unit.name kernel
        ∧ sampleThird.result = .ok kernel
        ∧ sampleThird.after = sampleThird.before.counting CacheCounts.hit
        ∧ sampleThird.after.cache.find? "idle" = some kernel := by
  obtain ⟨again, kept, _⟩ := history_sample.requests_accounted
  obtain ⟨failed, succeeds⟩ := result_sample
  obtain ⟨kernel, made⟩ := exists_of_isOk succeeds
  have answers : sampleSecond.Answers sampleThird.unit.name kernel := ⟨rfl, made⟩
  have rest := (List.pairwise_cons.mp again).2
  obtain ⟨given, same, _⟩ := (List.pairwise_cons.mp rest).1 sampleThird (by simp) _ answers
  have added := (sampleSecond.find?_after "idle" kernel).mpr (Or.inr answers)
  exact ⟨kernel, history_sample, failed, answers, given, same,
    kept sampleSecond (by simp) _ _ (Or.inr added)⟩

end Cache

end LazyTensor
