import Mathlib

/-! A program with a check of its own beside the program without it: the first answers
what the second does, or fails with a failure of that check. -/

namespace Guarding

variable {ε σ α β : Type}

/-- `guarded` answers what `free` answers, or fails with a failure of its own. -/
def Guards (own : ε → Prop) (guarded free : Except ε α) : Prop :=
  guarded = free ∨ ∃ failure, own failure ∧ guarded = .error failure

section Answers

variable {own : ε → Prop} {guarded free : Except ε α}

theorem Guards.refl (answer : Except ε α) : Guards own answer answer := .inl rfl

theorem Guards.failed {failure : ε} (holds : own failure) (free : Except ε α) :
    Guards own (.error failure) free :=
  .inr ⟨failure, holds, rfl⟩

theorem Guards.bind {next next' : α → Except ε β} (first : Guards own guarded free)
    (after : ∀ value, Guards own (next value) (next' value)) :
    Guards own (guarded >>= next) (free >>= next') := by
  rcases first with rfl | ⟨failure, holds, rfl⟩
  · cases guarded with
    | error failure => exact Guards.refl (.error failure)
    | ok value => exact after value
  · exact Guards.failed holds _

theorem Guards.forM {body body' : α → Except ε PUnit}
    (each : ∀ value, Guards own (body value) (body' value)) (values : List α) :
    Guards own (values.forM body) (values.forM body') := by
  induction values with
  | nil => exact Guards.refl _
  | cons value values ih => exact Guards.bind (each value) fun _ => ih

theorem Guards.foldlM {body body' : β → α → Except ε β}
    (each : ∀ held value, Guards own (body held value) (body' held value)) (values : List α)
    (start : β) : Guards own (values.foldlM body start) (values.foldlM body' start) := by
  induction values generalizing start with
  | nil => exact Guards.refl _
  | cons value values ih =>
    rw [List.foldlM_cons, List.foldlM_cons]
    exact Guards.bind (each start value) fun held => ih held

end Answers

section Runs

/-- The same of two programs on a state, from every state. -/
def GuardsRun (own : ε → Prop) (guarded free : StateT σ (Except ε) α) : Prop :=
  ∀ state, Guards own (guarded state) (free state)

variable {own : ε → Prop}

theorem GuardsRun.refl (program : StateT σ (Except ε) α) : GuardsRun own program program :=
  fun _ => Guards.refl _

theorem GuardsRun.bind {guarded free : StateT σ (Except ε) α}
    {next next' : α → StateT σ (Except ε) β} (first : GuardsRun own guarded free)
    (after : ∀ value, GuardsRun own (next value) (next' value)) :
    GuardsRun own (guarded >>= next) (free >>= next') :=
  fun state => Guards.bind (first state) fun answer => after answer.1 answer.2

theorem GuardsRun.next {program : StateT σ (Except ε) α}
    {next next' : α → StateT σ (Except ε) β}
    (after : ∀ value, GuardsRun own (next value) (next' value)) :
    GuardsRun own (program >>= next) (program >>= next') :=
  GuardsRun.bind (GuardsRun.refl program) after

theorem GuardsRun.lift {guarded free : Except ε α} (guards : Guards own guarded free) :
    GuardsRun own (liftM guarded : StateT σ (Except ε) α) (liftM free) :=
  fun state => Guards.bind guards fun value => Guards.refl (.ok (value, state))

theorem GuardsRun.forM {body body' : α → StateT σ (Except ε) PUnit}
    (each : ∀ value, GuardsRun own (body value) (body' value)) (values : List α) :
    GuardsRun own (values.forM body) (values.forM body') := by
  induction values with
  | nil => exact GuardsRun.refl _
  | cons value values ih => exact GuardsRun.bind (each value) fun _ => ih

theorem GuardsRun.foldlM {body body' : β → α → StateT σ (Except ε) β}
    (each : ∀ held value, GuardsRun own (body held value) (body' held value)) (values : List α)
    (start : β) : GuardsRun own (values.foldlM body start) (values.foldlM body' start) := by
  induction values generalizing start with
  | nil => exact GuardsRun.refl _
  | cons value values ih =>
    rw [List.foldlM_cons, List.foldlM_cons]
    exact GuardsRun.bind (each start value) fun held => ih held

end Runs

end Guarding
