import Mathlib

/-! Numbered tickets handed out under keys: whoever asks for the next number of a key is
served only when nobody took it, until a clearing starts the key over. -/

namespace OxideBatch.Lib

variable {Key : Type} [DecidableEq Key]

/-- What a step does to the tickets held. -/
inductive TicketStep (Key : Type) where
  | taken (key : Key) (ticket : Nat)
  | idle
  | cleared

namespace TicketStep

/-- How a step moves the last ticket of each key. A clearing may pass keys over. -/
def Moves (step : TicketStep Key) (before after : Key → Nat) : Prop :=
  match step with
  | .taken key ticket => ticket = before key + 1 ∧ after = Function.update before key ticket
  | .idle => after = before
  | .cleared => ∀ key, after key = before key ∨ after key = 0

def isCleared : TicketStep Key → Bool
  | .cleared => true
  | _ => false

def ticketOf (key : Key) : TicketStep Key → Option Nat
  | .taken other ticket => if other = key then some ticket else none
  | _ => none

end TicketStep

/-- The tickets of a key, in the order they were taken. -/
def ticketsOf (key : Key) (steps : List (TicketStep Key)) : List Nat :=
  steps.filterMap (·.ticketOf key)

inductive Moved : (Key → Nat) → List (TicketStep Key) → (Key → Nat) → Prop
  | nil (held : Key → Nat) : Moved held [] held
  | cons {before between after : Key → Nat} {step : TicketStep Key} {steps : List (TicketStep Key)} :
    step.Moves before between → Moved between steps after → Moved before (step :: steps) after

/-- Without a clearing the tickets of a key are the numbers between the first and the last
one held. -/
theorem Moved.tickets {before after : Key → Nat} {steps : List (TicketStep Key)}
    (moved : Moved before steps after) (uncleared : ∀ step ∈ steps, step.isCleared = false)
    (key : Key) :
    after key = before key + (ticketsOf key steps).length ∧
      ticketsOf key steps = List.range' (before key + 1) (ticketsOf key steps).length := by
  induction moved with
  | nil held => exact ⟨rfl, rfl⟩
  | @cons before between after step steps moves _ ih =>
    obtain ⟨last, tickets⟩ := ih fun other member => uncleared other (List.mem_cons_of_mem _ member)
    have here := uncleared step List.mem_cons_self
    cases step with
    | taken other ticket =>
      obtain ⟨next, between_eq⟩ := moves
      by_cases same : other = key
      · subst same
        have held : between other = before other + 1 := by
          rw [between_eq, Function.update_self, next]
        have taken : ticketsOf other (.taken other ticket :: steps) =
            ticket :: ticketsOf other steps := by
          simp [ticketsOf, TicketStep.ticketOf]
        rw [taken, List.length_cons, List.range'_succ]
        constructor
        · omega
        · rw [tickets, held, next, List.length_range']
      · have held : between key = before key := by
          rw [between_eq, Function.update_of_ne (Ne.symm same)]
        have taken : ticketsOf key (.taken other ticket :: steps) = ticketsOf key steps := by
          simp [ticketsOf, TicketStep.ticketOf, same]
        rw [taken, ← held]
        exact ⟨last, tickets⟩
    | idle =>
      have held : between = before := moves
      subst held
      exact ⟨last, tickets⟩
    | cleared => cases here

/-- Tickets within a limit are no more than the limit. -/
theorem Moved.tickets_length_le {before after : Key → Nat} {steps : List (TicketStep Key)}
    (moved : Moved before steps after) (uncleared : ∀ step ∈ steps, step.isCleared = false)
    {key : Key} {limit : Nat} (within : ∀ ticket ∈ ticketsOf key steps, ticket ≤ limit) :
    (ticketsOf key steps).length ≤ limit := by
  obtain ⟨_, tickets⟩ := moved.tickets uncleared key
  by_cases none : (ticketsOf key steps).length = 0
  · omega
  · have last : before key + (ticketsOf key steps).length ∈ ticketsOf key steps := by
      rw [tickets, List.mem_range'_1, List.length_range']
      omega
    exact Nat.le_trans (Nat.le_add_left _ _) (within _ last)

end OxideBatch.Lib
