import OxideBatch.Lib.Program

/-! What fallible programs can fail with. -/

namespace Program

variable {σ ε α β : Type} {allowed : ε → Prop}

/-- The answer is a result, or one of the allowed failures. -/
def Refuses (allowed : ε → Prop) (answer : Except ε α) : Prop :=
  ∀ failure, answer = .error failure → allowed failure

/-- From every state the program returns, or fails with one of the allowed failures. -/
def Fails (allowed : ε → Prop) (program : StateT σ (Except ε) α) : Prop :=
  ∀ state, Refuses allowed (program state)

section Answers

theorem Refuses.ok (value : α) : Refuses allowed (.ok value) := by
  intro failure failed
  cases failed

theorem Refuses.error {failure : ε} (holds : allowed failure) :
    Refuses allowed (.error failure : Except ε α) := by
  intro other failed
  cases failed
  exact holds

theorem Refuses.bind {first : Except ε α} {next : α → Except ε β} (here : Refuses allowed first)
    (rest : ∀ value, Refuses allowed (next value)) : Refuses allowed (first >>= next) := by
  cases first with
  | error failure => exact .error (here failure rfl)
  | ok value => exact rest value

theorem Refuses.map {first : Except ε α} (change : α → β) (here : Refuses allowed first) :
    Refuses allowed (first.map change) := by
  cases first with
  | error failure => exact .error (here failure rfl)
  | ok value => exact .ok _

theorem Refuses.mapM {body : α → Except ε β} (each : ∀ value, Refuses allowed (body value))
    (values : List α) : Refuses allowed (values.mapM body) := by
  induction values with
  | nil => exact .ok _
  | cons value values ih =>
    rw [List.mapM_cons]
    exact .bind (each value) fun _ => .bind ih fun _ => .ok _

theorem Refuses.foldlM {body : β → α → Except ε β}
    (each : ∀ held value, Refuses allowed (body held value)) (values : List α) (start : β) :
    Refuses allowed (values.foldlM body start) := by
  induction values generalizing start with
  | nil => exact .ok _
  | cons value values ih =>
    rw [List.foldlM_cons]
    exact .bind (each start value) ih

end Answers

section Programs

theorem Fails.pure (value : α) : Fails allowed (pure value : StateT σ (Except ε) α) :=
  fun _ => .ok _

theorem Fails.throw {failure : ε} (holds : allowed failure) :
    Fails allowed (throw failure : StateT σ (Except ε) α) :=
  fun _ => .error holds

theorem Fails.get : Fails allowed (get : StateT σ (Except ε) σ) := fun _ => .ok _

theorem Fails.modify (change : σ → σ) :
    Fails allowed (modify change : StateT σ (Except ε) PUnit) := fun _ => .ok _

theorem Fails.lift {answer : Except ε α} (refuses : Refuses allowed answer) :
    Fails allowed (liftM answer : StateT σ (Except ε) α) := by
  intro state
  cases answer with
  | error failure => exact .error (refuses failure rfl)
  | ok value => exact .ok _

theorem Fails.bind {program : StateT σ (Except ε) α} {next : α → StateT σ (Except ε) β}
    (here : Fails allowed program) (rest : ∀ value, Fails allowed (next value)) :
    Fails allowed (program >>= next) := by
  intro state
  exact Refuses.bind (here state) fun answer => rest answer.1 answer.2

theorem Fails.forM {body : α → StateT σ (Except ε) PUnit}
    (each : ∀ value, Fails allowed (body value)) (values : List α) :
    Fails allowed (values.forM body) := by
  induction values with
  | nil => exact Fails.pure _
  | cons value values ih => exact Fails.bind (each value) fun _ => ih

/-- A program with these failures only does not end in another one. -/
theorem Fails.ne {program : StateT σ (Except ε) α} (fails : Fails allowed program) {failure : ε}
    (other : ¬ allowed failure) (state : σ) : program state ≠ .error failure :=
  fun failed => other (fails state failure failed)

theorem bind_errs {program : StateT σ (Except ε) α} {next : α → StateT σ (Except ε) β} {state : σ}
    {failure : ε} : (program >>= next) state = .error failure ↔
      program state = .error failure ∨
        ∃ value state', program state = .ok (value, state') ∧ next value state' = .error failure := by
  change (program state >>= fun answer => next answer.1 answer.2) = _ ↔ _
  cases program state with
  | error other => simp [bind, Except.bind]
  | ok answer => simp [bind, Except.bind, Prod.ext_iff]

theorem lift_errs {answer : Except ε α} {state : σ} {failure : ε} :
    (liftM answer : StateT σ (Except ε) α) state = .error failure ↔ answer = .error failure := by
  cases answer with
  | error other => simp [liftM, monadLift, MonadLift.monadLift, StateT.lift, bind, Except.bind]
  | ok value =>
    simp [liftM, monadLift, MonadLift.monadLift, StateT.lift, bind, Except.bind, pure, Except.pure]

end Programs

end Program
