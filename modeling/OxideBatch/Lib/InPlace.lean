import Mathlib

/-! Calls that change a value in place. A call answers or fails, and either way leaves a
value behind; versions that every accepted call must name count those calls. -/

namespace OxideBatch.Lib

variable {κ ε σ τ α : Type}

/-- A call on a value in place. -/
abbrev InPlace (ε σ α : Type) := ExceptT ε (StateM σ) α

/-- What a call answers and what it leaves behind. -/
def perform (action : InPlace ε σ α) (state : σ) : Except ε α × σ := (action.run).run state

section Effects

variable {β : Type} (state : σ)

@[simp] theorem perform_pure (value : α) :
    perform (pure value : InPlace ε σ α) state = (.ok value, state) := rfl

@[simp] theorem perform_get : perform (get : InPlace ε σ σ) state = (.ok state, state) := rfl

@[simp] theorem perform_modify (change : σ → σ) :
    perform (modify change : InPlace ε σ PUnit) state = (.ok (), change state) := rfl

@[simp] theorem perform_throw (failure : ε) :
    perform (throw failure : InPlace ε σ α) state = (.error failure, state) := rfl

@[simp] theorem perform_lift (answer : Except ε α) :
    perform (liftM answer : InPlace ε σ α) state = (answer, state) := rfl

@[simp] theorem perform_bind (first : InPlace ε σ α) (next : α → InPlace ε σ β) :
    perform (first >>= next) state =
      match perform first state with
      | (.ok value, after) => perform (next value) after
      | (.error failure, after) => (.error failure, after) := by
  change perform (ExceptT.mk (first.run >>= ExceptT.bindCont next)) state = _
  unfold perform
  change (first.run >>= ExceptT.bindCont next).run state = _
  rw [StateT.run_bind]
  change (ExceptT.bindCont next (first.run.run state).1).run (first.run.run state).2 = _
  cases first.run.run state with
  | mk answer after => cases answer <;> rfl

end Effects

/-- A call on a part of a value. -/
def InPlace.on (part : τ → σ) (replace : τ → σ → τ) (action : InPlace ε σ α) : InPlace ε τ α :=
  ExceptT.mk fun whole =>
    let result := perform action (part whole)
    (result.1, replace whole result.2)

theorem perform_on (part : τ → σ) (replace : τ → σ → τ) (action : InPlace ε σ α) (whole : τ) :
    perform (action.on part replace) whole =
      ((perform action (part whole)).1, replace whole (perform action (part whole)).2) := rfl

variable (call : κ → InPlace ε σ α)

/-- The value behind a list of calls. -/
def runCalls (state : σ) (requests : List κ) : σ :=
  requests.foldl (fun state request => (perform (call request) state).2) state

/-- The requests of a list of calls that were answered. -/
def answered : σ → List κ → List κ
  | _, [] => []
  | state, request :: rest =>
    let result := perform (call request) state
    if result.1.isOk then request :: answered result.2 rest else answered result.2 rest

variable {call}

/-- What every call keeps, every list of calls keeps. -/
theorem runCalls_keeps {invariant : σ → Prop}
    (step : ∀ request state, invariant state → invariant (perform (call request) state).2)
    {state : σ} (start : invariant state) (requests : List κ) :
    invariant (runCalls call state requests) := by
  induction requests generalizing state with
  | nil => exact start
  | cons request rest ih => exact ih (step request state start)

/-- Optimistic locking: a call is accepted only when it names the version, which it then
raises by one; a refused call leaves the version. -/
structure Locked (call : κ → InPlace ε σ α) (expected : κ → Nat) (version : σ → Nat) : Prop where
  accepted : ∀ request state, (perform (call request) state).1.isOk = true →
    expected request = version state ∧
      version (perform (call request) state).2 = version state + 1
  refused : ∀ request state, (perform (call request) state).1.isOk = false →
    version (perform (call request) state).2 = version state

namespace Locked

variable {expected : κ → Nat} {version : σ → Nat}

/-- The accepted calls named the versions one by one. -/
theorem answered_versions (locked : Locked call expected version) (state : σ)
    (requests : List κ) :
    (answered call state requests).map expected =
        List.range' (version state) (answered call state requests).length ∧
      version (runCalls call state requests) =
        version state + (answered call state requests).length := by
  induction requests generalizing state with
  | nil => exact ⟨rfl, rfl⟩
  | cons request rest ih =>
    obtain ⟨named, final⟩ := ih (perform (call request) state).2
    have stays : runCalls call state (request :: rest) =
      runCalls call (perform (call request) state).2 rest := rfl
    cases answer : (perform (call request) state).1.isOk with
    | false =>
      have same := locked.refused request state answer
      rw [answered, if_neg (by rw [answer]; decide), stays, named, final, same]
      exact ⟨rfl, rfl⟩
    | true =>
      obtain ⟨first, raised⟩ := locked.accepted request state answer
      rw [answered, if_pos answer, stays, List.map_cons, named, final, raised, first,
        List.length_cons, List.range'_succ]
      exact ⟨rfl, by omega⟩

/-- No two accepted calls named the same version. -/
theorem answered_nodup (locked : Locked call expected version) (state : σ) (requests : List κ) :
    ((answered call state requests).map expected).Nodup := by
  rw [(locked.answered_versions state requests).1]
  exact List.nodup_range'

end Locked

/-- Calls on a part leave the rest of a value alone and answer as on the part. -/
theorem runCalls_on {part : τ → σ} {replace : τ → σ → τ} (get_put : ∀ whole value,
    part (replace whole value) = value) (whole : τ) (requests : List κ) :
    part (runCalls (fun request => (call request).on part replace) whole requests) =
      runCalls call (part whole) requests ∧
    answered (fun request => (call request).on part replace) whole requests =
      answered call (part whole) requests := by
  induction requests generalizing whole with
  | nil => exact ⟨rfl, rfl⟩
  | cons request rest ih =>
    obtain ⟨same, answers⟩ := ih (replace whole (perform (call request) (part whole)).2)
    rw [get_put] at same answers
    refine ⟨same, ?_⟩
    rw [answered, answered, perform_on]
    dsimp only
    rw [answers]

end OxideBatch.Lib
