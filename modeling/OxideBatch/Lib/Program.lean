import Mathlib

/-! Pre- and postconditions of state-passing programs. -/

namespace Program

variable {σ α β : Type}

/-- From every state that satisfies `before`, the program ends in `after`. -/
def Ensures (before : σ → Prop) (program : StateM σ α) (after : α → σ → Prop) : Prop :=
  ∀ state, before state → after (program state).1 (program state).2

/-- Every run of the program moves the state along `step`. -/
def Along (step : σ → σ → Prop) (program : StateM σ α) : Prop :=
  ∀ state, step state (program state).2

theorem Ensures.pure {after : α → σ → Prop} {before : σ → Prop} {value : α}
    (holds : ∀ state, before state → after value state) :
    Ensures before (pure value : StateM σ α) after := holds

theorem Ensures.bind {before : σ → Prop} {middle : α → σ → Prop} {after : β → σ → Prop}
    {program : StateM σ α} {next : α → StateM σ β} (first : Ensures before program middle)
    (second : ∀ value, Ensures (middle value) (next value) after) :
    Ensures before (program >>= next) after :=
  fun state holds => second _ _ (first state holds)

theorem Ensures.weaken {before before' : σ → Prop} {after after' : α → σ → Prop}
    {program : StateM σ α} (ensures : Ensures before' program after')
    (stronger : ∀ state, before state → before' state)
    (weaker : ∀ value state, after' value state → after value state) :
    Ensures before program after :=
  fun state holds => weaker _ _ (ensures state (stronger state holds))

theorem Ensures.and {before before' : σ → Prop} {after after' : α → σ → Prop}
    {program : StateM σ α} (first : Ensures before program after)
    (second : Ensures before' program after') :
    Ensures (fun state => before state ∧ before' state) program
      (fun value state => after value state ∧ after' value state) :=
  fun state holds => ⟨first state holds.1, second state holds.2⟩

theorem Ensures.get {before : σ → Prop} :
    Ensures before (get : StateM σ σ) (fun value state => value = state ∧ before state) :=
  fun _ holds => ⟨rfl, holds⟩

/-- An invariant of `step` is kept by a program that moves along it. -/
theorem Along.ensures {step : σ → σ → Prop} {invariant : σ → Prop} {program : StateM σ α}
    (along : Along step program)
    (kept : ∀ {state state'}, invariant state → step state state' → invariant state') :
    Ensures invariant program (fun _ => invariant) :=
  fun state holds => kept holds (along state)

section Step

variable {step : σ → σ → Prop}

theorem Along.pure (refl : ∀ state, step state state) (value : α) :
    Along step (pure value : StateM σ α) := refl

theorem Along.bind {program : StateM σ α} {next : α → StateM σ β}
    (trans : ∀ {first second third}, step first second → step second third → step first third)
    (first : Along step program) (second : ∀ value, Along step (next value)) :
    Along step (program >>= next) :=
  fun state => trans (first state) (second _ _)

theorem Along.ite {condition : Prop} [Decidable condition] {yes no : StateM σ α}
    (first : Along step yes) (second : Along step no) :
    Along step (if condition then yes else no) := by
  split
  · exact first
  · exact second

end Step

section Fallible

variable {ε : Type} {state state' state'' : σ} {value : α}

theorem bind_eq_ok {first : Except ε α} {next : α → Except ε β} {result : β}
    (bound : (first >>= next) = .ok result) :
    ∃ middle, first = .ok middle ∧ next middle = .ok result := by
  cases first with
  | error failure => cases bound
  | ok middle => exact ⟨middle, rfl, bound⟩

theorem forM_eq_ok {check : α → Except ε PUnit} {values : List α}
    (checked : values.forM check = .ok ()) : ∀ value ∈ values, check value = .ok () := by
  induction values with
  | nil =>
    intro value member
    cases member
  | cons first values ih =>
    obtain ⟨_, here, rest⟩ := bind_eq_ok checked
    intro value member
    rcases List.mem_cons.mp member with rfl | later
    · exact here
    · exact ih rest value later

theorem yields_pure {result : α}
    (yields : (pure value : StateT σ (Except ε) α) state = .ok (result, state')) :
    result = value ∧ state = state' := by
  cases yields
  exact ⟨rfl, rfl⟩

theorem yields_bind {program : StateT σ (Except ε) α} {next : α → StateT σ (Except ε) β}
    {result : β} (yields : (program >>= next) state = .ok (result, state'')) :
    ∃ middle state', program state = .ok (middle, state') ∧ next middle state' = .ok (result, state'') := by
  change (program state >>= fun answer => next answer.1 answer.2) = _ at yields
  cases first : program state with
  | error failure =>
    rw [first] at yields
    cases yields
  | ok answer =>
    rw [first] at yields
    exact ⟨answer.1, answer.2, rfl, yields⟩

theorem yields_lift {answer : Except ε α} {result : α}
    (yields : (liftM answer : StateT σ (Except ε) α) state = .ok (result, state')) :
    answer = .ok result ∧ state = state' := by
  cases answer with
  | error failure => cases yields
  | ok value =>
    cases yields
    exact ⟨rfl, rfl⟩

/-- A program that returns moves the state along `step`. -/
def Keeps (step : σ → σ → Prop) (program : StateT σ (Except ε) α) : Prop :=
  ∀ state value state', program state = .ok (value, state') → step state state'

variable {step : σ → σ → Prop}

theorem Keeps.pure (refl : ∀ state, step state state) (value : α) :
    Keeps step (pure value : StateT σ (Except ε) α) := by
  intro state result state' yields
  cases yields
  exact refl state

theorem Keeps.bind {program : StateT σ (Except ε) α} {next : α → StateT σ (Except ε) β}
    (trans : ∀ {first second third}, step first second → step second third → step first third)
    (first : Keeps step program) (second : ∀ value, Keeps step (next value)) :
    Keeps step (program >>= next) := by
  intro state result state'' yields
  obtain ⟨middle, state', one, two⟩ := yields_bind yields
  exact trans (first _ _ _ one) (second middle _ _ _ two)

theorem Keeps.throw (failure : ε) :
    Keeps step (throw failure : StateT σ (Except ε) α) := by
  intro state result state' yields
  cases yields

theorem Keeps.lift (refl : ∀ state, step state state) (answer : Except ε α) :
    Keeps step (liftM answer : StateT σ (Except ε) α) := by
  intro state result state' yields
  obtain ⟨_, rfl⟩ := yields_lift yields
  exact refl _

theorem Keeps.get (refl : ∀ state, step state state) :
    Keeps step (get : StateT σ (Except ε) σ) := by
  intro state result state' yields
  cases yields
  exact refl _

theorem Keeps.modify {change : σ → σ} (kept : ∀ state, step state (change state)) :
    Keeps step (modify change : StateT σ (Except ε) PUnit) := by
  intro state result state' yields
  cases yields
  exact kept state

theorem Keeps.forM (refl : ∀ state, step state state)
    (trans : ∀ {first second third}, step first second → step second third → step first third)
    {body : α → StateT σ (Except ε) PUnit} (kept : ∀ value, Keeps step (body value))
    (values : List α) : Keeps step (values.forM body) := by
  induction values with
  | nil => exact Keeps.pure refl _
  | cons value values ih => exact Keeps.bind trans (kept value) fun _ => ih

theorem Keeps.foldlM (refl : ∀ state, step state state)
    (trans : ∀ {first second third}, step first second → step second third → step first third)
    {body : β → α → StateT σ (Except ε) β} (kept : ∀ held value, Keeps step (body held value))
    (values : List α) (start : β) : Keeps step (values.foldlM body start) := by
  induction values generalizing start with
  | nil => exact Keeps.pure refl _
  | cons value values ih => exact Keeps.bind trans (kept start value) fun held => ih held

section Inversion

variable {result : α} {failure : ε}

@[simp] theorem bind_yields {program : StateT σ (Except ε) α} {next : α → StateT σ (Except ε) β}
    {result : β} : (program >>= next) state = .ok (result, state'') ↔
      ∃ middle state', program state = .ok (middle, state') ∧
        next middle state' = .ok (result, state'') := by
  refine ⟨yields_bind, ?_⟩
  rintro ⟨middle, state', first, second⟩
  change (program state >>= fun answer => next answer.1 answer.2) = _
  rw [first]
  exact second

@[simp] theorem pure_yields : (pure value : StateT σ (Except ε) α) state = .ok (result, state') ↔
    value = result ∧ state = state' := by
  constructor
  · intro yields
    obtain ⟨rfl, rfl⟩ := yields_pure yields
    exact ⟨rfl, rfl⟩
  · rintro ⟨rfl, rfl⟩
    rfl

@[simp] theorem lift_yields {answer : Except ε α} :
    (liftM answer : StateT σ (Except ε) α) state = .ok (result, state') ↔
      answer = .ok result ∧ state = state' := by
  constructor
  · exact yields_lift
  · rintro ⟨rfl, rfl⟩
    rfl

@[simp] theorem get_yields {answer : σ} :
    (get : StateT σ (Except ε) σ) state = .ok (answer, state') ↔ state = answer ∧ state = state' :=
  @pure_yields _ _ _ state state' state answer

@[simp] theorem modify_yields {change : σ → σ} {answer : PUnit} :
    (modify change : StateT σ (Except ε) PUnit) state = .ok (answer, state') ↔
      change state = state' := by
  constructor
  · intro yields
    cases yields
    rfl
  · rintro rfl
    rfl

@[simp] theorem throw_yields :
    (throw failure : StateT σ (Except ε) α) state = .ok (result, state') ↔ False := by
  constructor
  · intro yields
    cases yields
  · exact False.elim

@[simp] theorem discard_yields {program : StateT σ (Except ε) α} {answer : PUnit} :
    (discard program) state = .ok (answer, state') ↔ ∃ result, program state = .ok (result, state') := by
  change (program state >>= fun answer => _) = _ ↔ _
  cases program state with
  | error failure =>
    constructor
    · intro yields
      cases yields
    · rintro ⟨_, yields⟩
      cases yields
  | ok answer =>
    constructor
    · intro yields
      cases yields
      exact ⟨_, rfl⟩
    · rintro ⟨_, yields⟩
      cases yields
      rfl

@[simp] theorem bind_ok {first : Except ε α} {next : α → Except ε β} {result : β} :
    (first >>= next) = .ok result ↔ ∃ middle, first = .ok middle ∧ next middle = .ok result := by
  refine ⟨bind_eq_ok, ?_⟩
  rintro ⟨middle, rfl, second⟩
  exact second

@[simp] theorem pure_ok : (pure value : Except ε α) = .ok result ↔ value = result := by
  constructor
  · intro yields
    cases yields
    rfl
  · rintro rfl
    rfl

@[simp] theorem mapError_ok {ε' : Type} {answer : Except ε α} {change : ε → ε'} :
    answer.mapError change = .ok result ↔ answer = .ok result := by
  cases answer with
  | error failure => simp [Except.mapError]
  | ok value => simp [Except.mapError]

/-- What every step of a fold keeps, the fold keeps. -/
theorem foldlM_ok {body : β → α → Except ε β} {invariant : β → Prop} {values : List α}
    (kept : ∀ held value next, invariant held → body held value = .ok next → invariant next)
    {start result : β} (initial : invariant start) (done : values.foldlM body start = .ok result) :
    invariant result := by
  induction values generalizing start with
  | nil =>
    rw [List.foldlM_nil, pure_ok] at done
    exact done ▸ initial
  | cons value values ih =>
    rw [List.foldlM_cons, bind_ok] at done
    obtain ⟨next, here, there⟩ := done
    exact ih (kept start value next initial here) there

/-- Every step of a fold that succeeds has succeeded. -/
theorem foldlM_each {body : β → α → Except ε β} {values : List α} {start result : β}
    (done : values.foldlM body start = .ok result) :
    ∀ value ∈ values, ∃ held next, body held value = .ok next := by
  induction values generalizing start with
  | nil => simp
  | cons value values ih =>
    rw [List.foldlM_cons, bind_ok] at done
    obtain ⟨next, here, there⟩ := done
    intro other member
    rcases List.mem_cons.mp member with rfl | later
    · exact ⟨start, next, here⟩
    · exact ih there other later

/-- The results of a list of answers, each from a value of the list. -/
theorem mapM_ok {body : α → Except ε β} {values : List α} {results : List β}
    (done : values.mapM body = .ok results) :
    List.Forall₂ (fun value result => body value = .ok result) values results := by
  induction values generalizing results with
  | nil =>
    rw [List.mapM_nil, pure_ok] at done
    rw [← done]
    exact .nil
  | cons value values ih =>
    simp only [List.mapM_cons, bind_ok, pure_ok] at done
    obtain ⟨first, here, rest, there, rfl⟩ := done
    exact .cons here (ih there)

theorem mapM_member {Answers : α → β → Prop} {values : List α} {results : List β} {result : β}
    (answers : List.Forall₂ Answers values results) (member : result ∈ results) :
    ∃ value ∈ values, Answers value result := by
  induction answers with
  | nil => cases member
  | cons here _ ih =>
    rcases List.mem_cons.mp member with rfl | later
    · exact ⟨_, List.mem_cons_self, here⟩
    · obtain ⟨value, present, holds⟩ := ih later
      exact ⟨value, List.mem_cons_of_mem _ present, holds⟩

theorem mapM_result {Answers : α → β → Prop} {values : List α} {results : List β} {value : α}
    (answers : List.Forall₂ Answers values results) (member : value ∈ values) :
    ∃ result ∈ results, Answers value result := by
  induction answers with
  | nil => cases member
  | cons here _ ih =>
    rcases List.mem_cons.mp member with rfl | later
    · exact ⟨_, List.mem_cons_self, here⟩
    · obtain ⟨result, present, holds⟩ := ih later
      exact ⟨result, List.mem_cons_of_mem _ present, holds⟩

/-- A list of questions that leave the state alone. -/
theorem mapM_yields {body : α → StateT σ (Except ε) β}
    (unchanged : ∀ value state result state', body value state = .ok (result, state') →
      state = state')
    {values : List α} {results : List β} (done : values.mapM body state = .ok (results, state')) :
    state = state' ∧
      List.Forall₂ (fun value result => body value state = .ok (result, state)) values results := by
  induction values generalizing results with
  | nil =>
    rw [List.mapM_nil, pure_yields] at done
    obtain ⟨rfl, rfl⟩ := done
    exact ⟨rfl, .nil⟩
  | cons value values ih =>
    simp only [List.mapM_cons, bind_yields, pure_yields] at done
    obtain ⟨first, middle, here, rest, last, there, rfl, rfl⟩ := done
    obtain rfl := unchanged _ _ _ _ here
    obtain ⟨rfl, held⟩ := ih there
    exact ⟨rfl, .cons here held⟩

end Inversion

end Fallible

end Program
