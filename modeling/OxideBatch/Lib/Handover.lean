import Mathlib

/-! Resources that are taken up one after another: only the current one is in use, and
each of the others was never opened or has been closed once. -/

namespace Handover

variable {δ κ : Type}

/-- A resource with its own state, and what has been done with it. -/
structure Holding (δ κ : Type) where
  state : δ
  opened : Bool
  closings : List κ
  deriving DecidableEq

/-- It is open and has not been closed. -/
def Holding.Live (holding : Holding δ κ) : Prop :=
  holding.opened = true ∧ holding.closings = []

/-- It was never opened, or it has been closed once. -/
def Holding.Over (holding : Holding δ κ) : Prop :=
  holding.opened = false ∧ holding.closings = [] ∨
    holding.opened = true ∧ holding.closings.length = 1

theorem Holding.Live.not_over {holding : Holding δ κ} (live : holding.Live) : ¬ holding.Over := by
  rintro (⟨closed, _⟩ | ⟨_, one⟩)
  · rw [live.1] at closed
    cases closed
  · rw [live.2] at one
    cases one

/-- A resource that nothing has been done with yet. -/
def Holding.fresh (state : δ) : Holding δ κ := ⟨state, false, []⟩

def Holding.start (state : δ → δ) (holding : Holding δ κ) : Holding δ κ :=
  { holding with state := state holding.state, opened := true }

def Holding.close (closing : κ) (holding : Holding δ κ) : Holding δ κ :=
  { holding with closings := holding.closings ++ [closing] }

def Holding.move (state : δ → δ) (holding : Holding δ κ) : Holding δ κ :=
  { holding with state := state holding.state }

/-- Only the current resource, if there is one, is in use. -/
structure Held (holdings : List (Holding δ κ)) (current : Option Nat) : Prop where
  each : ∀ number holding, holdings[number]? = some holding →
    (current = some number → holding.Live) ∧ (current ≠ some number → holding.Over)
  known : ∀ number, current = some number → number < holdings.length

variable {holdings : List (Holding δ κ)} {current : Option Nat} {number : Nat}

theorem modify_last (before : List (Holding δ κ)) (holding : Holding δ κ)
    (update : Holding δ κ → Holding δ κ) :
    (before ++ [holding]).modify before.length update = before ++ [update holding] := by
  induction before with
  | nil => rfl
  | cons first before ih => exact congrArg (first :: ·) ih

theorem held_nil : Held ([] : List (Holding δ κ)) none :=
  ⟨fun _ _ found => by simp at found, fun _ none_current => by cases none_current⟩

/-- A new resource is not in use. -/
theorem Held.enter (held : Held holdings current) (state : δ) :
    Held (holdings ++ [.fresh state]) current := by
  refine ⟨fun other holding found => ?_, fun other is => ?_⟩
  · rcases Nat.lt_trichotomy other holdings.length with within | rfl | beyond
    · rw [List.getElem?_append_left within] at found
      exact held.each other holding found
    · have same : holding = .fresh state := by simpa [eq_comm] using found
      subst same
      exact ⟨fun is => absurd (held.known _ is) (Nat.lt_irrefl _), fun _ => .inl ⟨rfl, rfl⟩⟩
    · have outside : (holdings ++ [Holding.fresh state]).length ≤ other := by simpa using beyond
      simp [List.getElem?_eq_none_iff.mpr outside] at found
  · have within := held.known other is
    simp only [List.length_append, List.length_singleton]
    omega

/-- The resource that is opened becomes the current one. -/
theorem Held.opens (held : Held holdings none) {holding : Holding δ κ}
    (found : holdings[number]? = some holding) (closed : holding.opened = false) (state : δ → δ) :
    Held (holdings.modify number (.start state)) (some number) := by
  refine ⟨fun other after stored => ?_, fun other is => ?_⟩
  · rw [List.getElem?_modify] at stored
    obtain ⟨before, kept, rfl⟩ := Option.map_eq_some_iff.mp stored
    by_cases same : number = other
    · subst same
      obtain rfl := Option.some.inj (found.symm.trans kept)
      have rests := (held.each number holding found).2 (by simp)
      have unused : holding.closings = [] := by
        rcases rests with ⟨_, none_closed⟩ | ⟨opened, _⟩
        · exact none_closed
        · rw [closed] at opened
          cases opened
      rw [if_pos rfl]
      exact ⟨fun _ => ⟨rfl, unused⟩, fun different => absurd rfl different⟩
    · rw [if_neg same]
      exact ⟨fun is => absurd (Option.some.inj is) same,
        fun _ => (held.each other before kept).2 (by simp)⟩
  · obtain rfl := Option.some.inj is
    rw [List.length_modify]
    exact (List.getElem?_eq_some_iff.mp found).1

/-- The current resource is closed, and none is in use. -/
theorem Held.closes (held : Held holdings (some number)) (closing : κ) :
    Held (holdings.modify number (.close closing)) none := by
  refine ⟨fun other after stored => ⟨fun is => (by cases is), fun _ => ?_⟩,
    fun other is => (by cases is)⟩
  rw [List.getElem?_modify] at stored
  obtain ⟨before, kept, rfl⟩ := Option.map_eq_some_iff.mp stored
  by_cases same : number = other
  · subst same
    obtain ⟨opened, unused⟩ := (held.each number before kept).1 rfl
    rw [if_pos rfl]
    refine .inr ⟨opened, ?_⟩
    simp [Holding.close, unused]
  · rw [if_neg same]
    exact (held.each other before kept).2 fun is => same (Option.some.inj is)

/-- Its state may change. -/
theorem Held.moves (held : Held holdings current) (state : δ → δ) :
    Held (holdings.modify number (.move state)) current := by
  refine ⟨fun other after stored => ?_, fun other is => by
    rw [List.length_modify]; exact held.known other is⟩
  rw [List.getElem?_modify] at stored
  obtain ⟨before, kept, rfl⟩ := Option.map_eq_some_iff.mp stored
  have same : ((if number = other then Holding.move state before else before).Live ↔ before.Live) ∧
      ((if number = other then Holding.move state before else before).Over ↔ before.Over) := by
    split <;> exact ⟨Iff.rfl, Iff.rfl⟩
  rw [same.1, same.2]
  exact held.each other before kept

/-- No two resources are in use. -/
theorem Held.one_live (held : Held holdings current) {first second : Nat}
    {holding holding' : Holding δ κ} (found : holdings[first]? = some holding)
    (found' : holdings[second]? = some holding') (live : holding.Live) (live' : holding'.Live) :
    first = second := by
  have is : current = some first := by
    by_contra different
    exact live.not_over ((held.each first holding found).2 different)
  have is' : current = some second := by
    by_contra different
    exact live'.not_over ((held.each second holding' found').2 different)
  exact Option.some.inj (is.symm.trans is')

/-- None is closed twice, and none that was not opened. -/
theorem Held.closed_once (held : Held holdings current) {holding : Holding δ κ}
    (found : holdings[number]? = some holding) :
    holding.closings.length ≤ 1 ∧ (holding.opened = false → holding.closings = []) := by
  obtain ⟨here, others⟩ := held.each number holding found
  by_cases is : current = some number
  · obtain ⟨opened, unused⟩ := here is
    rw [unused, opened]
    exact ⟨by simp, fun _ => rfl⟩
  · rcases others is with ⟨_, unused⟩ | ⟨opened, one⟩
    · rw [unused]
      exact ⟨by simp, fun _ => rfl⟩
    · rw [opened]
      exact ⟨one.le, fun never => by cases never⟩

/-- Where none is in use, each that was opened has been closed. -/
theorem Held.all_closed (held : Held holdings none) {holding : Holding δ κ}
    (found : holdings[number]? = some holding) (opened : holding.opened = true) :
    holding.closings.length = 1 := by
  rcases (held.each number holding found).2 (by simp) with ⟨never, _⟩ | ⟨_, one⟩
  · rw [opened] at never
    cases never
  · exact one

end Handover
