import Mathlib

/-! Two runs that agree: both fail, or both return related results from related
states. A loop whose steps commute agrees with itself over any order. -/

namespace Agreement

variable {ε α β γ δ : Type}

/-- Both answers are failures, or both are results and the results are related. -/
def Agree (related : α → β → Prop) : Except ε α → Except ε β → Prop
  | .ok left, .ok right => related left right
  | .error _, .error _ => True
  | _, _ => False

section Answers

variable {related : α → β → Prop} {first : Except ε α} {second : Except ε β}

theorem Agree.of_eq {answer : Except ε α} : Agree (· = ·) answer answer := by
  cases answer with
  | error failure => exact trivial
  | ok value => exact rfl

theorem Agree.mono {weaker : α → β → Prop} (agree : Agree related first second)
    (implies : ∀ left right, related left right → weaker left right) :
    Agree weaker first second := by
  cases first with
  | error failure =>
    cases second with
    | error _ => exact trivial
    | ok _ => exact agree
  | ok left =>
    cases second with
    | error _ => exact agree
    | ok right => exact implies left right agree

theorem Agree.bind {later : γ → δ → Prop} {next : α → Except ε γ} {next' : β → Except ε δ}
    (agree : Agree related first second)
    (step : ∀ left right, related left right → Agree later (next left) (next' right)) :
    Agree later (first >>= next) (second >>= next') := by
  cases first with
  | error failure =>
    cases second with
    | error _ => exact trivial
    | ok _ => exact False.elim agree
  | ok left =>
    cases second with
    | error _ => exact False.elim agree
    | ok right => exact step left right agree

theorem Agree.trans {third : Except ε γ} {related' : β → γ → Prop} {whole : α → γ → Prop}
    (left : Agree related first second) (right : Agree related' second third)
    (compose : ∀ one two three, related one two → related' two three → whole one three) :
    Agree whole first third := by
  cases first with
  | error failure =>
    cases second with
    | error _ =>
      cases third with
      | error _ => exact trivial
      | ok _ => exact False.elim right
    | ok _ => exact False.elim left
  | ok one =>
    cases second with
    | error _ => exact False.elim left
    | ok two =>
      cases third with
      | error _ => exact False.elim right
      | ok three => exact compose one two three left right

/-- Related results, with the answers they come from. -/
theorem Agree.of_answers (agree : Agree related first second) :
    Agree (fun left right => related left right ∧ first = .ok left ∧ second = .ok right)
      first second := by
  cases first with
  | error failure =>
    cases second with
    | error _ => exact trivial
    | ok _ => exact agree
  | ok left =>
    cases second with
    | error _ => exact agree
    | ok right => exact ⟨agree, rfl, rfl⟩

theorem Agree.ok_iff (agree : Agree related first second) : first.isOk = second.isOk := by
  cases first with
  | error failure =>
    cases second with
    | error _ => rfl
    | ok _ => exact False.elim agree
  | ok left =>
    cases second with
    | error _ => exact False.elim agree
    | ok right => rfl

/-- Answers of which each result comes with one of the other. -/
theorem Agree.of_results (forth : ∀ left, first = .ok left → ∃ right, second = .ok right ∧
      related left right)
    (back : ∀ right, second = .ok right → ∃ left, first = .ok left) :
    Agree related first second := by
  cases first with
  | error failure =>
    cases second with
    | error _ => exact trivial
    | ok right =>
      obtain ⟨_, yields⟩ := back right rfl
      cases yields
  | ok left =>
    obtain ⟨right, yields, holds⟩ := forth left rfl
    rw [yields]
    exact holds

/-- The result that goes with a result. -/
theorem Agree.result (agree : Agree related first second) (yields : first = .ok left) :
    ∃ right, second = .ok right ∧ related left right := by
  subst yields
  cases second with
  | error _ => exact False.elim agree
  | ok right => exact ⟨right, rfl, agree⟩

theorem Agree.of_ok_iff {answer answer' : Except ε α}
    (same : ∀ value, answer = .ok value ↔ answer' = .ok value) :
    Agree (· = ·) answer answer' := by
  cases answer with
  | error failure =>
    cases answer' with
    | error _ => exact trivial
    | ok value => exact absurd ((same value).mpr rfl) nofun
  | ok value =>
    rw [(same value).mp rfl]
    exact rfl

end Answers

section Loops

variable {related : α → β → Prop} {paired : γ → δ → Prop}
  {body : α → γ → Except ε α} {body' : β → δ → Except ε β}

/-- Loops over paired lists agree where their steps do. -/
theorem Agree.foldlM {values : List γ} {values' : List δ} {start : α} {start' : β}
    (step : ∀ held held' value value', related held held' → paired value value' →
      Agree related (body held value) (body' held' value'))
    (pairs : List.Forall₂ paired values values') (initial : related start start') :
    Agree related (values.foldlM body start) (values'.foldlM body' start') := by
  induction pairs generalizing start start' with
  | nil => exact initial
  | cons here _ ih =>
    rw [List.foldlM_cons, List.foldlM_cons]
    exact (step _ _ _ _ initial here).bind fun _ _ next => ih next

variable {same : α → α → Prop}

/-- A loop whose steps commute agrees with itself over every order of its values. -/
theorem Agree.foldlM_perm {values values' : List γ} {start start' : α}
    (refl : ∀ held, same held held)
    (trans : ∀ {first second third}, same first second → same second third → same first third)
    (step : ∀ held held' value, same held held' → Agree same (body held value) (body held' value))
    (swap : ∀ held first second, Agree same (body held first >>= fun held => body held second)
      (body held second >>= fun held => body held first))
    (perm : values.Perm values') (initial : same start start') :
    Agree same (values.foldlM body start) (values'.foldlM body start') := by
  -- over one order, from related starts
  have along : ∀ (values : List γ) (start start' : α), same start start' →
      Agree same (values.foldlM body start) (values.foldlM body start') := by
    intro values start start' initial
    have pairs : List.Forall₂ (· = ·) values values := List.forall₂_refl values
    apply Agree.foldlM ?_ pairs initial
    rintro held held' value _ related rfl
    exact step held held' value related
  induction perm generalizing start start' with
  | nil => exact initial
  | cons value _ ih =>
    rw [List.foldlM_cons, List.foldlM_cons]
    exact (step _ _ value initial).bind fun _ _ next => ih next
  | swap first second values =>
    have here : Agree same (body start second >>= fun held => body held first)
        (body start' first >>= fun held => body held second) := by
      have moved : Agree same (body start first >>= fun held => body held second)
          (body start' first >>= fun held => body held second) :=
        (step _ _ first initial).bind fun _ _ next => step _ _ second next
      exact (swap start second first).trans moved fun _ _ _ one two => trans one two
    simp only [List.foldlM_cons]
    rw [← bind_assoc, ← bind_assoc]
    exact here.bind fun _ _ next => along values _ _ next
  | trans _ _ ih ih' => exact (ih initial).trans (ih' (refl _)) fun _ _ _ one two => trans one two

end Loops

section Programs

variable {σ τ : Type}

/-- From related states, the programs agree and end in related states. -/
def Simulates (states : σ → τ → Prop) (related : α → β → Prop) (program : StateT σ (Except ε) α)
    (program' : StateT τ (Except ε) β) : Prop :=
  ∀ state state', states state state' →
    Agree (fun left right => related left.1 right.1 ∧ states left.2 right.2)
      (program state) (program' state')

variable {states : σ → τ → Prop} {related : α → β → Prop}

theorem Simulates.pure {left : α} {right : β} (holds : related left right) :
    Simulates states related (pure left : StateT σ (Except ε) α) (pure right) :=
  fun _ _ initial => ⟨holds, initial⟩

theorem Simulates.throw {failure failure' : ε} :
    Simulates states related (throw failure : StateT σ (Except ε) α)
      (throw failure' : StateT τ (Except ε) β) :=
  fun _ _ _ => trivial

theorem Simulates.bind {later : γ → δ → Prop} {program : StateT σ (Except ε) α}
    {program' : StateT τ (Except ε) β} {next : α → StateT σ (Except ε) γ}
    {next' : β → StateT τ (Except ε) δ} (first : Simulates states related program program')
    (second : ∀ left right, related left right → Simulates states later (next left) (next' right)) :
    Simulates states later (program >>= next) (program' >>= next') :=
  fun state state' initial =>
    (first state state' initial).bind fun left right holds =>
      second left.1 right.1 holds.1 left.2 right.2 holds.2

theorem Simulates.get : Simulates (ε := ε) states states get get :=
  fun _ _ initial => ⟨initial, initial⟩

theorem Simulates.modify {change : σ → σ} {change' : τ → τ}
    (kept : ∀ state state', states state state' → states (change state) (change' state')) :
    Simulates (ε := ε) states (fun _ _ => True) (modify change) (modify change') :=
  fun state state' initial => ⟨trivial, kept state state' initial⟩

theorem Simulates.lift {answer : Except ε α} {answer' : Except ε β}
    (agree : Agree related answer answer') :
    Simulates states related (liftM answer : StateT σ (Except ε) α)
      (liftM answer' : StateT τ (Except ε) β) := by
  intro state state' initial
  cases answer with
  | error failure =>
    cases answer' with
    | error _ => exact trivial
    | ok _ => exact False.elim agree
  | ok left =>
    cases answer' with
    | error _ => exact False.elim agree
    | ok right => exact ⟨agree, initial⟩

theorem Simulates.ite {condition condition' : Prop} [Decidable condition] [Decidable condition']
    {yes no : StateT σ (Except ε) α} {yes' no' : StateT τ (Except ε) β}
    (same : condition ↔ condition') (first : Simulates states related yes yes')
    (second : Simulates states related no no') :
    Simulates states related (if condition then yes else no)
      (if condition' then yes' else no') := by
  by_cases holds : condition
  · rw [if_pos holds, if_pos (same.mp holds)]
    exact first
  · rw [if_neg holds, if_neg fun other => holds (same.mpr other)]
    exact second

theorem Simulates.forM {paired : γ → δ → Prop} {body : γ → StateT σ (Except ε) PUnit}
    {body' : δ → StateT τ (Except ε) PUnit} {values : List γ} {values' : List δ}
    (step : ∀ value value', paired value value' →
      Simulates states (fun _ _ => True) (body value) (body' value'))
    (pairs : List.Forall₂ paired values values') :
    Simulates states (fun _ _ => True) (values.forM body) (values'.forM body') := by
  induction pairs with
  | nil => exact Simulates.pure trivial
  | cons here _ ih => exact (step _ _ here).bind fun _ _ _ => ih

theorem Simulates.foldlM {paired : γ → δ → Prop} {body : α → γ → StateT σ (Except ε) α}
    {body' : β → δ → StateT τ (Except ε) β} {values : List γ} {values' : List δ}
    {start : α} {start' : β}
    (step : ∀ held held' value value', related held held' → paired value value' →
      Simulates states related (body held value) (body' held' value'))
    (pairs : List.Forall₂ paired values values') (initial : related start start') :
    Simulates states related (values.foldlM body start) (values'.foldlM body' start') := by
  induction pairs generalizing start start' with
  | nil => exact Simulates.pure initial
  | cons here _ ih =>
    rw [List.foldlM_cons, List.foldlM_cons]
    exact (step _ _ _ _ initial here).bind fun _ _ next => ih next

/-- A loop of checks that commute on every state, over every order of its values. -/
theorem forM_perm {body : γ → StateT σ (Except ε) PUnit} {values values' : List γ}
    (swap : ∀ state first second,
      Agree (· = ·) ((body first >>= fun _ => body second) state)
        ((body second >>= fun _ => body first) state))
    (perm : values.Perm values') (state : σ) :
    Agree (· = ·) (values.forM body state) (values'.forM body state) := by
  induction perm generalizing state with
  | nil => exact rfl
  | cons value _ ih =>
    have first : Agree (· = ·) (body value state) (body value state) := Agree.of_eq
    refine first.bind ?_
    rintro ⟨_, next⟩ _ rfl
    exact ih next
  | swap first second values =>
    have here := swap state second first
    have whole : ∀ one two : γ, (one :: two :: values).forM body state =
        ((body one >>= fun _ => body two) state >>= fun answer => values.forM body answer.2) := by
      intro one two
      change (body one >>= fun _ => body two >>= fun _ => values.forM body) state = _
      rw [← bind_assoc]
      rfl
    rw [whole, whole]
    refine here.bind ?_
    rintro answer _ rfl
    exact Agree.of_eq
  | trans _ _ ih ih' => exact (ih state).trans (ih' state) fun _ _ _ => Eq.trans

end Programs

end Agreement
