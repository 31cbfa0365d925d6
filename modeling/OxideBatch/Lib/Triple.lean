import Mathlib

/-! Pre- and postconditions of programs that keep their state when they fail. -/

namespace Triple

variable {σ ε α β : Type}

/-- A program over a state; a failure keeps the state it has reached. -/
abbrev Fallible (σ ε α : Type) := ExceptT ε (StateM σ) α

/-- The answer of a run and the state it leaves. -/
def runs (program : Fallible σ ε α) (state : σ) : Except ε α × σ := program.run state

/-- What a run from `state` leaves: an answer with `after`, or a failure with `failed`. -/
def Leaves (after : α → σ → Prop) (failed : ε → σ → Prop) : Except ε α × σ → Prop
  | (.ok value, state) => after value state
  | (.error failure, state) => failed failure state

/-- From every state that satisfies `before` the program ends in `after` or `failed`. -/
def Ends (before : σ → Prop) (program : Fallible σ ε α) (after : α → σ → Prop)
    (failed : ε → σ → Prop) : Prop :=
  ∀ state, before state → Leaves after failed (runs program state)

variable {before : σ → Prop} {after : α → σ → Prop} {failed : ε → σ → Prop}

theorem runs_bind (program : Fallible σ ε α) (next : α → Fallible σ ε β) (state : σ) :
    runs (program >>= next) state =
      match runs program state with
      | (.ok value, middle) => runs (next value) middle
      | (.error failure, middle) => (.error failure, middle) := by
  change (ExceptT.bindCont next (runs program state).1) (runs program state).2 = _
  rcases runs program state with ⟨_ | _, _⟩ <;> rfl

theorem Ends.pure {value : α} (holds : ∀ state, before state → after value state) :
    Ends before (pure value : Fallible σ ε α) after failed := holds

theorem Ends.throw {failure : ε} (holds : ∀ state, before state → failed failure state) :
    Ends before (throw failure : Fallible σ ε α) after failed := holds

theorem Ends.bind {after : β → σ → Prop} {program : Fallible σ ε α} {next : α → Fallible σ ε β}
    (middle : α → σ → Prop) (first : Ends before program middle failed)
    (second : ∀ value, Ends (middle value) (next value) after failed) :
    Ends before (program >>= next) after failed := by
  intro state holds
  have ended := first state holds
  rw [runs_bind]
  rcases result : runs program state with ⟨failure | value, state'⟩
  · rw [result] at ended
    exact ended
  · rw [result] at ended
    exact second value state' ended

theorem Ends.weaken {before' : σ → Prop} {after' : α → σ → Prop} {failed' : ε → σ → Prop}
    {program : Fallible σ ε α} (ends : Ends before' program after' failed')
    (stronger : ∀ state, before state → before' state)
    (weaker : ∀ value state, after' value state → after value state)
    (failing : ∀ failure state, failed' failure state → failed failure state) :
    Ends before program after failed := by
  intro state holds
  have ended := ends state (stronger state holds)
  rcases result : runs program state with ⟨failure | value, state'⟩
  · rw [result] at ended
    exact failing failure state' ended
  · rw [result] at ended
    exact weaker value state' ended

theorem Ends.ite {condition : Prop} [Decidable condition] {yes no : Fallible σ ε α}
    (first : condition → Ends before yes after failed)
    (second : ¬ condition → Ends before no after failed) :
    Ends before (if condition then yes else no) after failed := by
  split
  · next holds => exact first holds
  · next holds => exact second holds

theorem Ends.get : Ends before (get : Fallible σ ε σ) (fun value state => value = state ∧ before state)
    failed :=
  fun _ holds => ⟨rfl, holds⟩

theorem Ends.modify {change : σ → σ} {after : PUnit → σ → Prop}
    (holds : ∀ state, before state → after () (change state)) :
    Ends before (modify change : Fallible σ ε PUnit) after failed := holds

/-- A loop that carries a value, with an invariant over what has been done. -/
theorem Ends.foldlM {body : β → α → Fallible σ ε β} {values : List α}
    (invariant : List α → β → σ → Prop)
    (step : ∀ done value rest held, values = done ++ value :: rest →
      Ends (invariant done held) (body held value) (invariant (done ++ [value])) failed)
    {held : β} : Ends (invariant [] held) (values.foldlM body held) (invariant values) failed := by
  have general : ∀ (rest done : List α) (held : β), values = done ++ rest →
      Ends (invariant done held) (rest.foldlM body held) (invariant values) failed := by
    intro rest
    induction rest with
    | nil =>
      intro done held whole
      rw [List.append_nil] at whole
      rw [whole]
      exact Ends.pure fun _ holds => holds
    | cons value rest ih =>
      intro done held whole
      rw [List.foldlM_cons]
      refine Ends.bind _ (step done value rest held whole) fun next => ?_
      apply ih
      rw [whole, List.append_assoc]
      rfl
  exact general values [] held rfl

section Gives

/-- What a program without a state gives: an answer with `good`, or a failure with `bad`. -/
def Gives (good : α → Prop) (bad : ε → Prop) : Except ε α → Prop
  | .ok value => good value
  | .error failure => bad failure

variable {good : α → Prop} {bad : ε → Prop}

theorem Gives.bind {good : β → Prop} {middle : α → Prop} {program : Except ε α}
    {next : α → Except ε β} (first : Gives middle bad program)
    (second : ∀ value, middle value → Gives good bad (next value)) :
    Gives good bad (program >>= next) := by
  cases program with
  | error failure => exact first
  | ok value => exact second value first

theorem Gives.weaken {good' : α → Prop} {bad' : ε → Prop} {program : Except ε α}
    (gives : Gives good' bad' program) (weaker : ∀ value, good' value → good value)
    (failing : ∀ failure, bad' failure → bad failure) : Gives good bad program := by
  cases program with
  | error failure => exact failing failure gives
  | ok value => exact weaker value gives

theorem Gives.ite {condition : Prop} [Decidable condition] {yes no : Except ε α}
    (first : condition → Gives good bad yes) (second : ¬ condition → Gives good bad no) :
    Gives good bad (if condition then yes else no) := by
  split
  · next holds => exact first holds
  · next holds => exact second holds

/-- A loop that carries a value, with an invariant over what has been done. -/
theorem Gives.foldlM {body : β → α → Except ε β} {values : List α} (invariant : List α → β → Prop)
    (step : ∀ done value rest held, values = done ++ value :: rest → invariant done held →
      Gives (invariant (done ++ [value])) bad (body held value))
    {held : β} (start : invariant [] held) :
    Gives (invariant values) bad (values.foldlM body held) := by
  have general : ∀ (rest done : List α) (held : β), values = done ++ rest → invariant done held →
      Gives (invariant values) bad (rest.foldlM body held) := by
    intro rest
    induction rest with
    | nil =>
      intro done held whole holds
      rw [List.append_nil] at whole
      rw [whole]
      exact holds
    | cons value rest ih =>
      intro done held whole holds
      rw [List.foldlM_cons]
      refine (step done value rest held whole holds).bind fun next kept => ?_
      apply ih (done ++ [value]) next _ kept
      rw [whole, List.append_assoc, List.singleton_append]
  exact general values [] held rfl start

/-- A check of every value. -/
theorem Gives.forM {check : α → Except ε PUnit} {values : List α} {held : α → Prop}
    (each : ∀ value ∈ values, Gives (fun _ => held value) bad (check value)) :
    Gives (fun _ => ∀ value ∈ values, held value) bad (values.forM check) := by
  induction values with
  | nil => exact fun _ member => (List.not_mem_nil member).elim
  | cons first values ih =>
    have here := each first List.mem_cons_self
    have rest := ih fun value member => each value (List.mem_cons_of_mem _ member)
    refine here.bind fun _ holds => rest.weaken (fun _ others value member => ?_) fun _ failed => failed
    rcases List.mem_cons.mp member with rfl | later
    · exact holds
    · exact others value later

end Gives

end Triple
