import Mathlib

/-! Properties that every event of a history has after the events before it. -/

namespace OxideBatch.Lib

variable {α : Type}

/-- Every event of the history has the property after the events before it. -/
def Throughout (property : List α → α → Prop) (history : List α) : Prop :=
  ∀ before event after, history = before ++ event :: after → property before event

variable {property : List α → α → Prop}

theorem throughout_nil : Throughout property [] := by
  intro before event after split
  simp at split

theorem Throughout.snoc {history : List α} {event : α} (holds : Throughout property history)
    (here : property history event) : Throughout property (history ++ [event]) := by
  intro before other after split
  rcases List.eq_nil_or_concat after with empty | ⟨front, last, same⟩
  · subst empty
    obtain ⟨sameHistory, sameEvent⟩ := List.append_inj' split rfl
    rw [← sameHistory, ← List.singleton_inj.mp sameEvent]
    exact here
  · subst same
    rw [List.concat_eq_append, ← List.cons_append, ← List.append_assoc] at split
    exact holds before other front (List.append_inj' split rfl).1

/-- Events that have the property where something is carried along extend the history. -/
theorem Throughout.extend {carried : List α → Prop} {history events : List α}
    (holds : Throughout property history) (start : carried history)
    (step : ∀ before, ∀ event ∈ events, carried before →
      property before event ∧ carried (before ++ [event])) :
    Throughout property (history ++ events) := by
  induction events generalizing history with
  | nil =>
    rw [List.append_nil]
    exact holds
  | cons event events ih =>
    obtain ⟨here, later⟩ := step history event List.mem_cons_self start
    have rest := ih (holds.snoc here) later
      fun before other member => step before other (List.mem_cons_of_mem _ member)
    rwa [List.append_assoc, List.singleton_append] at rest

/-- Events with the property after any history extend it. -/
theorem Throughout.append {history events : List α} (holds : Throughout property history)
    (anywhere : ∀ event ∈ events, ∀ before, property before event) :
    Throughout property (history ++ events) :=
  @Throughout.extend _ _ (fun _ => True) _ _ holds trivial
    fun before event member _ => ⟨anywhere event member before, trivial⟩

theorem Throughout.of_append {history later : List α}
    (holds : Throughout property (history ++ later)) : Throughout property history := by
  intro before event after split
  apply holds before event (after ++ later)
  rw [split, List.append_assoc, List.cons_append]

/-- What an event with the property carries on holds at the end of the history. -/
theorem Throughout.carries {carried : List α → Prop} {history : List α}
    (holds : Throughout property history) (start : carried [])
    (step : ∀ before event, carried before → property before event → carried (before ++ [event])) :
    carried history := by
  induction history using List.reverseRecOn with
  | nil => exact start
  | append_singleton before event ih =>
    exact step before event (ih holds.of_append) (holds before event [] rfl)

end OxideBatch.Lib
