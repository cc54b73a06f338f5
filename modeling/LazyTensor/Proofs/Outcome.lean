/-! Outcomes of steps that change a state and may fail. What holds of an outcome is composed
along the parts of a step, so a builder or an engine is taken apart without running it.
-/

namespace LazyTensor

variable {ε σ α β : Type}

/-- The result of a step and the state in which it leaves off. -/
def outcome (step : ExceptT ε (StateM σ) α) (start : σ) : Except ε α × σ := step.run.run start

/-- From a state, a step either gives a value and a state of which `done` holds, or fails with a
cause in a state of which `failed` holds.
-/
def Ends (step : ExceptT ε (StateM σ) α) (start : σ) (done : α → σ → Prop)
    (failed : ε → σ → Prop)
    : Prop :=
  match outcome step start with
  | (.ok value, final) => done value final
  | (.error cause, final) => failed cause final

section

variable {start : σ} {done : α → σ → Prop} {failed : ε → σ → Prop}

@[simp] theorem ends_pure {value : α}
    : Ends (pure value : ExceptT ε (StateM σ) α) start done failed ↔ done value start :=
  Iff.rfl

@[simp] theorem ends_throw {cause : ε}
    : Ends (throw cause : ExceptT ε (StateM σ) α) start done failed ↔ failed cause start :=
  Iff.rfl

@[simp] theorem ends_get {done : σ → σ → Prop}
    : Ends (get : ExceptT ε (StateM σ) σ) start done failed ↔ done start start :=
  Iff.rfl

@[simp] theorem ends_set {final : σ} {done : PUnit → σ → Prop}
    : Ends (set final : ExceptT ε (StateM σ) PUnit) start done failed ↔ done ⟨⟩ final :=
  Iff.rfl

@[simp] theorem ends_modify {change : σ → σ} {done : PUnit → σ → Prop}
    : Ends (modify change : ExceptT ε (StateM σ) PUnit) start done failed
      ↔ done ⟨⟩ (change start) :=
  Iff.rfl

/-- A step of two parts runs the second from where the first leaves off, unless that failed. -/
theorem outcome_bind (step : ExceptT ε (StateM σ) α) (next : α → ExceptT ε (StateM σ) β)
    (start : σ)
    : outcome (step >>= next) start
      = match outcome step start with
        | (.ok value, middle) => outcome (next value) middle
        | (.error cause, middle) => (.error cause, middle) := by
  change (match outcome step start with
    | (result, middle) => (ExceptT.bindCont next result : StateT σ Id (Except ε β)) middle) = _
  rcases outcome step start with ⟨cause | value, middle⟩ <;> rfl

/-- The outcome of two parts is the outcome of the second from where the first ends. -/
@[simp] theorem ends_bind {step : ExceptT ε (StateM σ) α} {next : α → ExceptT ε (StateM σ) β}
    {done : β → σ → Prop}
    : Ends (step >>= next) start done failed
      ↔ Ends step start (fun value middle => Ends (next value) middle done failed) failed := by
  unfold Ends
  rw [outcome_bind]
  rcases outcome step start with ⟨cause | value, middle⟩ <;> rfl

@[simp] theorem ends_ite {condition : Prop} [Decidable condition]
    {yes no : ExceptT ε (StateM σ) α}
    : Ends (if condition then yes else no) start done failed
      ↔ if condition then Ends yes start done failed else Ends no start done failed := by
  split <;> rfl

/-- What may fail without changing anything ends as it does anywhere. -/
@[simp] theorem ends_liftExcept {value : Except ε α} {done : α → σ → Prop}
    : Ends (liftM value : ExceptT ε (StateM σ) α) start done failed
      ↔ match value with
        | .ok result => done result start
        | .error cause => failed cause start := by
  cases value <;> rfl

/-- A step whose result is looked at does not fail, whatever the result. -/
@[simp] theorem ends_lift_run {step : ExceptT ε (StateM σ) α} {done : Except ε α → σ → Prop}
    : Ends (ExceptT.lift step.run : ExceptT ε (StateM σ) (Except ε α)) start done failed
      ↔ done (outcome step start).1 (outcome step start).2 :=
  Iff.rfl

/-- An outcome of which more is known is one of which less is known. -/
theorem Ends.mono {step : ExceptT ε (StateM σ) α} {done' : α → σ → Prop}
    {failed' : ε → σ → Prop} (ends : Ends step start done failed)
    (weaken : ∀ value final, done value final → done' value final)
    (weakenFailed : ∀ cause final, failed cause final → failed' cause final)
    : Ends step start done' failed' := by
  unfold Ends at ends ⊢
  revert ends
  rcases outcome step start with ⟨cause | value, final⟩
  · exact weakenFailed cause final
  · exact weaken value final

/-- What holds of all values, causes and states holds however a step ends. -/
theorem Ends.of_forall {step : ExceptT ε (StateM σ) α} (all : ∀ value final, done value final)
    (allFailed : ∀ cause final, failed cause final)
    : Ends step start done failed := by
  unfold Ends
  rcases outcome step start with ⟨cause | value, final⟩
  · exact allFailed cause final
  · exact all value final

/-- What is known of an outcome in two ways is known at once. -/
theorem Ends.and {step : ExceptT ε (StateM σ) α} {done' : α → σ → Prop} {failed' : ε → σ → Prop}
    (ends : Ends step start done failed) (also : Ends step start done' failed')
    : Ends step start (fun value final => done value final ∧ done' value final)
        (fun cause final => failed cause final ∧ failed' cause final) := by
  unfold Ends at *
  revert ends also
  rcases outcome step start with ⟨cause | value, final⟩
  · exact And.intro
  · exact And.intro

/-- What holds of the state however a step ends holds of the state in which it ends. -/
theorem Ends.final {step : ExceptT ε (StateM σ) α} (holds : σ → Prop)
    (ends : Ends step start (fun _ => holds) (fun _ => holds))
    : holds (outcome step start).2 := by
  unfold Ends at ends
  revert ends
  rcases outcome step start with ⟨cause | value, final⟩ <;> exact id

/-- What holds of results and states in both cases holds of the outcome. -/
theorem Ends.holds {step : ExceptT ε (StateM σ) α} {holds : Except ε α → σ → Prop}
    (ends
      : Ends step start (fun value => holds (.ok value)) (fun cause => holds (.error cause)))
    : holds (outcome step start).1 (outcome step start).2 := by
  unfold Ends at ends
  revert ends
  rcases outcome step start with ⟨cause | value, final⟩ <;> exact id

/-- What a step comes to in both cases is its outcome. -/
theorem Ends.outcome_eq {step : ExceptT ε (StateM σ) α} {known : Except ε α × σ}
    (ends
      : Ends step start (fun value final => (.ok value, final) = known)
          (fun cause final => (.error cause, final) = known))
    : outcome step start = known := by
  unfold Ends at ends
  revert ends
  rcases outcome step start with ⟨cause | value, final⟩ <;> exact id

/-- What holds of a value and the state that comes with it holds of the outcome that gives the
value.
-/
theorem Ends.of_ok {step : ExceptT ε (StateM σ) α} (ends : Ends step start done failed)
    {value : α} (given : (outcome step start).1 = .ok value)
    : done value (outcome step start).2 := by
  unfold Ends at ends
  revert ends given
  rcases outcome step start with ⟨cause | found, final⟩
  · intro _ found
    cases found
  · intro ends found
    cases found
    exact ends

/-- A step that does not fail gives a value. -/
theorem Ends.exists_ok {step : ExceptT ε (StateM σ) α} (ends : Ends step start done fun _ _ => False)
    : ∃ value, (outcome step start).1 = .ok value ∧ done value (outcome step start).2 := by
  unfold Ends at ends
  revert ends
  rcases outcome step start with ⟨cause | value, final⟩
  · exact False.elim
  · exact fun ends => ⟨value, rfl, ends⟩

/-- What holds of a cause and the state that comes with it holds of the outcome that fails with
the cause.
-/
theorem Ends.of_error {step : ExceptT ε (StateM σ) α} (ends : Ends step start done failed)
    {cause : ε} (given : (outcome step start).1 = .error cause)
    : failed cause (outcome step start).2 := by
  unfold Ends at ends
  revert ends given
  rcases outcome step start with ⟨other | value, final⟩
  · intro ends found
    cases found
    exact ends
  · intro _ found
    cases found

/-- What does not fail gives a value. -/
theorem exists_of_isOk {result : Except ε α} (succeeds : result.isOk = true)
    : ∃ value, result = .ok value := by
  cases result with
  | ok value => exact ⟨value, rfl⟩
  | error cause => cases succeeds

/-- A step that cannot fail and gives one value in one state has that outcome. -/
theorem outcome_eq_ok {step : ExceptT ε (StateM σ) α} {value : α} {final : σ}
    (ends
      : Ends step start (fun given last => given = value ∧ last = final) (fun _ _ => False))
    : outcome step start = (.ok value, final) := by
  unfold Ends at ends
  revert ends
  rcases outcome step start with ⟨cause | given, last⟩
  · exact False.elim
  · rintro ⟨rfl, rfl⟩
    rfl

/-- What is known of all outcomes holds of the one that is reached. -/
theorem Ends.of_run {step : ExceptT ε (StateM σ) α} (ends : Ends step start done failed)
    {result : Except ε α} {final : σ}
    (run : outcome step start = (result, final))
    : match result with
      | .ok value => done value final
      | .error cause => failed cause final := by
  unfold Ends at ends
  rw [run] at ends
  cases result <;> exact ends

end

end LazyTensor
