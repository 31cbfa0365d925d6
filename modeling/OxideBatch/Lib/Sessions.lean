import Mathlib

/-! Callers that share a store and work in units. A unit begins on a snapshot of the
store, and what it stages becomes the store only where the snapshot is still current. -/

namespace OxideBatch.Lib

variable {σ ρ α β ε Other : Type}

/-- What a caller does: it answers, or it works in a unit and goes on with the snapshot
it saw and whether the unit went through. A unit that stages nothing is rolled back. -/
inductive Session (σ ρ : Type) where
  | answer (value : ρ)
  | unit (stage : σ → Option σ) (next : σ → Bool → Session σ ρ)

namespace Session

def bind (session : Session σ α) (next : α → Session σ β) : Session σ β :=
  match session with
  | answer value => next value
  | unit stage rest => unit stage fun snapshot through => (rest snapshot through).bind next

instance : Monad (Session σ) where
  pure := answer
  bind := bind

/-- A unit that only reads. -/
def observe (look : σ → α) : Session σ α :=
  unit (fun _ => none) fun snapshot _ => answer (look snapshot)

/-- A program in a unit of its own: its failure drops the unit, its result is committed.
The caller has lost the race where the commit is refused. -/
def transact (program : σ → Except ε (α × σ)) (lost : ε) : Session σ (Except ε α) :=
  unit (fun snapshot => (program snapshot).toOption.map (·.2)) fun snapshot through =>
    answer (match program snapshot with
      | .error failure => .error failure
      | .ok (value, _) => if through then .ok value else .error lost)

end Session

/-- A store that counts its commits, as far as the limit of the counter. -/
structure Versioned (σ : Type) where
  revision : σ → Nat
  stamp : σ → Nat → σ
  limit : Nat
  revision_stamp : ∀ store count, revision (stamp store count) = count

namespace Versioned

variable (versioned : Versioned σ)

/-- The store with its next revision. -/
def advance (store current : σ) : σ := versioned.stamp store (versioned.revision current + 1)

/-- What is staged on a snapshot replaces the store that is still at its revision. -/
def commit (snapshot staged current : σ) : Option σ :=
  if versioned.revision current ≠ versioned.revision snapshot then none
  else if versioned.revision current + 1 < versioned.limit then
    some (versioned.advance staged current)
  else none

end Versioned

inductive Caller (σ ρ : Type) where
  | waiting (session : Session σ ρ)
  | working (snapshot : σ) (stage : σ → Option σ) (next : σ → Bool → Session σ ρ)

/-- The shared store and its callers by number. -/
structure Site (σ ρ : Type) where
  store : σ
  callers : Nat → Caller σ ρ

/-- A caller begins or finishes its unit, or anyone else commits. -/
inductive Turn (Other : Type) where
  | begin (caller : Nat)
  | finish (caller : Nat)
  | elsewhere (other : Other)

structure Commit (σ : Type) where
  caller : Nat
  before : σ
  after : σ

namespace Site

variable (versioned : Versioned σ) (act : Other → σ → σ)

/-- Every caller is about to begin its session. -/
def opened (store : σ) (sessions : Nat → Session σ ρ) : Site σ ρ :=
  ⟨store, fun caller => .waiting (sessions caller)⟩

def move (site : Site σ ρ) (caller : Nat) (moved : Caller σ ρ) : Site σ ρ :=
  { site with callers := Function.update site.callers caller moved }

/-- The store a caller commits when it finishes now. -/
def committed (site : Site σ ρ) (caller : Nat) : Option σ :=
  match site.callers caller with
  | .waiting _ => none
  | .working snapshot stage _ => do versioned.commit snapshot (← stage snapshot) site.store

/-- A caller ends its unit, through unless what it staged was refused. -/
def finished (site : Site σ ρ) (caller : Nat) : Caller σ ρ :=
  match site.callers caller with
  | .waiting session => .waiting session
  | .working snapshot stage next =>
    .waiting (next snapshot ((stage snapshot).isNone || (site.committed versioned caller).isSome))

def step (site : Site σ ρ) : Turn Other → Site σ ρ
  | .begin caller =>
    match site.callers caller with
    | .waiting (.unit stage next) => site.move caller (.working site.store stage next)
    | _ => site
  | .finish caller =>
    { site.move caller (site.finished versioned caller) with
      store := (site.committed versioned caller).getD site.store }
  | .elsewhere other =>
    if versioned.revision site.store + 1 < versioned.limit then
      { site with store := versioned.advance (act other site.store) site.store }
    else site

def run (site : Site σ ρ) (turns : List (Turn Other)) : Site σ ρ :=
  turns.foldl (step versioned act) site

/-- What a caller commits in a turn. -/
def commitOf (site : Site σ ρ) : Turn Other → Option (Commit σ)
  | .finish caller =>
    (site.committed versioned caller).map fun after => ⟨caller, site.store, after⟩
  | _ => none

/-- The commits of the callers along a run. -/
def trace (site : Site σ ρ) : List (Turn Other) → List (Commit σ)
  | [] => []
  | turn :: turns =>
    (site.commitOf versioned turn).toList ++ (site.step versioned act turn).trace turns

end Site

section Contracts

/-- What a caller counts on, and what it keeps to. -/
structure Contract (σ ρ : Type) where
  assumes : σ → Prop
  commits : σ → σ → Prop
  answers : ρ → Prop

/-- On snapshots as assumed, what the session commits and answers is as agreed. -/
def Session.Keeps (versioned : Versioned σ) (contract : Contract σ ρ) : Session σ ρ → Prop
  | answer value => contract.answers value
  | unit stage next =>
    (∀ snapshot staged, contract.assumes snapshot → stage snapshot = some staged →
      contract.commits snapshot (versioned.advance staged snapshot)) ∧
    ∀ snapshot through, contract.assumes snapshot → (next snapshot through).Keeps versioned contract

def Caller.Keeps (versioned : Versioned σ) (contract : Contract σ ρ) : Caller σ ρ → Prop
  | waiting session => session.Keeps versioned contract
  | working snapshot stage next =>
    contract.assumes snapshot ∧ (Session.unit stage next).Keeps versioned contract

/-- Every commit leaves to the others what they count on. -/
structure Respects (versioned : Versioned σ) (act : Other → σ → σ)
    (contracts : Nat → Contract σ ρ) : Prop where
  callers : ∀ caller other before after, (contracts caller).commits before after →
    (contracts other).assumes before → (contracts other).assumes after
  elsewhere : ∀ other caller store, (contracts caller).assumes store →
    (contracts caller).assumes (versioned.advance (act other store) store)

/-- A snapshot at the revision of the store is the store. -/
def Site.Coherent (versioned : Versioned σ) (site : Site σ ρ) : Prop :=
  ∀ caller snapshot stage next, site.callers caller = .working snapshot stage next →
    versioned.revision snapshot ≤ versioned.revision site.store ∧
      (versioned.revision site.store = versioned.revision snapshot → site.store = snapshot)

structure Site.Fulfils (versioned : Versioned σ) (contracts : Nat → Contract σ ρ)
    (site : Site σ ρ) : Prop where
  coherent : site.Coherent versioned
  assumed : ∀ caller, (contracts caller).assumes site.store
  kept : ∀ caller, (site.callers caller).Keeps versioned (contracts caller)

variable {versioned : Versioned σ} {act : Other → σ → σ} {site : Site σ ρ}

namespace Session

theorem Keeps.bind {contract : Contract σ β} {session : Session σ α} {next : α → Session σ β}
    (middle : α → Prop) (first : session.Keeps versioned ⟨contract.assumes, contract.commits, middle⟩)
    (second : ∀ value, middle value → (next value).Keeps versioned contract) :
    (session >>= next).Keeps versioned contract := by
  change (session.bind next).Keeps versioned contract
  induction session with
  | answer value => exact second value first
  | unit stage rest ih =>
    constructor
    · exact first.1
    · intro snapshot through assumed
      exact ih snapshot through (first.2 snapshot through assumed)

theorem Keeps.observe {contract : Contract σ α} {look : σ → α}
    (answers : ∀ snapshot, contract.assumes snapshot → contract.answers (look snapshot)) :
    (observe look).Keeps versioned contract := by
  constructor
  · intro snapshot staged assumed nothing
    cases nothing
  · intro snapshot through assumed
    exact answers snapshot assumed

theorem Keeps.transact {contract : Contract σ (Except ε α)} {program : σ → Except ε (α × σ)}
    {lost : ε}
    (commits : ∀ snapshot value staged, contract.assumes snapshot →
      program snapshot = .ok (value, staged) →
      contract.commits snapshot (versioned.advance staged snapshot) ∧ contract.answers (.ok value))
    (fails : ∀ snapshot failure, contract.assumes snapshot → program snapshot = .error failure →
      contract.answers (.error failure))
    (loses : contract.answers (.error lost)) :
    (transact program lost).Keeps versioned contract := by
  constructor
  · intro snapshot staged assumed stages
    cases result : program snapshot with
    | error failure => simp [result, Except.toOption] at stages
    | ok answer =>
      obtain ⟨value, after⟩ := answer
      simp only [result, Except.toOption, Option.map_some, Option.some.injEq] at stages
      exact stages ▸ (commits snapshot value after assumed result).1
  · intro snapshot through assumed
    cases result : program snapshot with
    | error failure =>
      simpa only [Keeps, result] using fails snapshot failure assumed result
    | ok answer =>
      obtain ⟨value, after⟩ := answer
      cases through with
      | false => simpa [Keeps, result] using loses
      | true => simpa [Keeps, result] using (commits snapshot value after assumed result).2

end Session

namespace Versioned

theorem commit_eq_some {snapshot staged current after : σ}
    (commits : versioned.commit snapshot staged current = some after) :
    versioned.revision current = versioned.revision snapshot ∧
      after = versioned.advance staged current := by
  unfold commit at commits
  split at commits
  · cases commits
  · rename_i same
    split at commits
    · cases commits
      exact ⟨not_not.mp same, rfl⟩
    · cases commits

theorem revision_advance (store current : σ) :
    versioned.revision (versioned.advance store current) = versioned.revision current + 1 :=
  versioned.revision_stamp _ _

end Versioned

namespace Site

/-- A commit that goes through was staged on the store as it is. -/
theorem Coherent.committed (coherent : site.Coherent versioned) {caller : Nat} {after : σ}
    (commits : site.committed versioned caller = some after) :
    ∃ stage next staged, site.callers caller = .working site.store stage next ∧
      stage site.store = some staged ∧ after = versioned.advance staged site.store := by
  unfold Site.committed at commits
  cases held : site.callers caller with
  | waiting session =>
    rw [held] at commits
    cases commits
  | working snapshot stage next =>
    simp only [held, Option.bind_eq_bind, Option.bind_eq_some_iff] at commits
    obtain ⟨staged, stages, accepted⟩ := commits
    obtain ⟨current, rfl⟩ := versioned.commit_eq_some accepted
    obtain rfl := (coherent caller snapshot stage next held).2 current
    exact ⟨stage, next, staged, rfl, stages, rfl⟩

theorem committed_revision {caller : Nat} {after : σ}
    (commits : site.committed versioned caller = some after) :
    versioned.revision after = versioned.revision site.store + 1 := by
  unfold Site.committed at commits
  cases held : site.callers caller with
  | waiting session =>
    rw [held] at commits
    cases commits
  | working snapshot stage next =>
    simp only [held, Option.bind_eq_bind, Option.bind_eq_some_iff] at commits
    obtain ⟨staged, stages, accepted⟩ := commits
    obtain ⟨current, rfl⟩ := versioned.commit_eq_some accepted
    exact versioned.revision_advance _ _

theorem finished_waiting (versioned : Versioned σ) (site : Site σ ρ) (caller : Nat) :
    ∃ session, site.finished versioned caller = .waiting session := by
  unfold finished
  cases site.callers caller with
  | waiting session => exact ⟨session, rfl⟩
  | working snapshot stage next => exact ⟨_, rfl⟩

/-- A caller that moves leaves the others where they are. -/
theorem callers_move {caller other : Nat} {moved : Caller σ ρ} :
    (site.move caller moved).callers other = if other = caller then moved else site.callers other := by
  unfold move
  by_cases same : other = caller
  · subst same
    simp
  · simp [same]

theorem Coherent.of_later (coherent : site.Coherent versioned) {site' : Site σ ρ}
    (later : site'.store = site.store ∨
      versioned.revision site'.store = versioned.revision site.store + 1)
    (callers : ∀ caller snapshot stage next, site'.callers caller = .working snapshot stage next →
      site.callers caller = .working snapshot stage next) : site'.Coherent versioned := by
  intro caller snapshot stage next held
  obtain ⟨behind, current⟩ := coherent caller snapshot stage next (callers _ _ _ _ held)
  rcases later with same | later
  · rw [same]
    exact ⟨behind, current⟩
  · refine ⟨by omega, fun same => ?_⟩
    omega

theorem Coherent.step (coherent : site.Coherent versioned) (turn : Turn Other) :
    (site.step versioned act turn).Coherent versioned := by
  cases turn with
  | begin caller =>
    simp only [Site.step]
    split
    · rename_i stage next waits
      intro other snapshot stage' next' held
      rw [callers_move] at held
      split at held
      · cases held
        exact ⟨Nat.le_refl _, fun _ => rfl⟩
      · exact coherent other snapshot stage' next' held
    · exact coherent
  | finish caller =>
    refine coherent.of_later ?_ ?_
    · cases commits : site.committed versioned caller with
      | none => simp [Site.step, commits]
      | some after => simp [Site.step, commits, committed_revision commits]
    · intro other snapshot stage next held
      simp only [Site.step, callers_move] at held
      split at held
      · obtain ⟨session, waits⟩ := finished_waiting versioned site caller
        rw [waits] at held
        cases held
      · exact held
  | elsewhere other =>
    simp only [Site.step]
    split
    · exact coherent.of_later (.inr (versioned.revision_advance _ _)) fun _ _ _ _ held => held
    · exact coherent

variable {contracts : Nat → Contract σ ρ}

theorem Fulfils.finished (fulfils : site.Fulfils versioned contracts) (caller : Nat) :
    (site.finished versioned caller).Keeps versioned (contracts caller) := by
  have kept := fulfils.kept caller
  unfold Site.finished
  cases held : site.callers caller with
  | waiting session =>
    rw [held] at kept
    exact kept
  | working snapshot stage next =>
    rw [held] at kept
    exact kept.2.2 _ _ kept.1

/-- What a caller commits is as it agreed. -/
theorem Fulfils.committed (fulfils : site.Fulfils versioned contracts) {caller : Nat} {after : σ}
    (commits : site.committed versioned caller = some after) :
    (contracts caller).commits site.store after := by
  obtain ⟨stage, next, staged, held, stages, rfl⟩ := fulfils.coherent.committed commits
  have kept := fulfils.kept caller
  rw [held] at kept
  exact kept.2.1 _ _ (fulfils.assumed caller) stages

theorem Fulfils.step (fulfils : site.Fulfils versioned contracts)
    (respects : Respects versioned act contracts) (turn : Turn Other) :
    (site.step versioned act turn).Fulfils versioned contracts where
  coherent := fulfils.coherent.step turn
  assumed := by
    intro caller
    have assumed := fulfils.assumed caller
    cases turn with
    | begin worker =>
      simp only [Site.step]
      split
      · exact assumed
      · exact assumed
    | finish worker =>
      cases commits : site.committed versioned worker with
      | none => simpa [Site.step, commits] using assumed
      | some after =>
        simpa [Site.step, commits] using
          respects.callers worker caller _ _ (fulfils.committed commits) assumed
    | elsewhere other =>
      simp only [Site.step]
      split
      · exact respects.elsewhere other caller _ assumed
      · exact assumed
  kept := by
    intro caller
    have kept := fulfils.kept caller
    cases turn with
    | begin worker =>
      simp only [Site.step]
      split
      · rename_i stage next waits
        rw [callers_move]
        split
        · rename_i same
          subst same
          rw [waits] at kept
          exact ⟨fulfils.assumed caller, kept⟩
        · exact kept
      · exact kept
    | finish worker =>
      simp only [Site.step, callers_move]
      split
      · rename_i same
        subst same
        exact fulfils.finished caller
      · exact kept
    | elsewhere other =>
      simp only [Site.step]
      split
      · exact kept
      · exact kept

theorem Fulfils.run (fulfils : site.Fulfils versioned contracts)
    (respects : Respects versioned act contracts) (turns : List (Turn Other)) :
    (site.run versioned act turns).Fulfils versioned contracts := by
  induction turns generalizing site with
  | nil => exact fulfils
  | cons turn turns ih => exact ih (fulfils.step respects turn)

/-- Every commit of a run is as its caller agreed. -/
theorem Fulfils.trace (fulfils : site.Fulfils versioned contracts)
    (respects : Respects versioned act contracts) (turns : List (Turn Other)) :
    ∀ commit ∈ site.trace versioned act turns,
      (contracts commit.caller).commits commit.before commit.after := by
  induction turns generalizing site with
  | nil =>
    intro commit member
    cases member
  | cons turn turns ih =>
    intro commit member
    rcases List.mem_append.mp member with here | later
    · cases turn with
      | finish caller =>
        simp only [commitOf, Option.mem_toList, Option.map_eq_some_iff] at here
        obtain ⟨after, commits, rfl⟩ := here
        exact fulfils.committed commits
      | begin _ => cases here
      | elsewhere _ => cases here
    · exact ih (fulfils.step respects turn) commit later

theorem Fulfils.opened {store : σ} {sessions : Nat → Session σ ρ}
    (assumed : ∀ caller, (contracts caller).assumes store)
    (kept : ∀ caller, (sessions caller).Keeps versioned (contracts caller)) :
    (Site.opened store sessions).Fulfils versioned contracts where
  coherent := by
    intro caller snapshot stage next held
    cases held
  assumed := assumed
  kept := kept

theorem run_append (site : Site σ ρ) (first second : List (Turn Other)) :
    site.run versioned act (first ++ second) =
      (site.run versioned act first).run versioned act second := by
  unfold run
  exact List.foldl_append

theorem trace_append (site : Site σ ρ) (first second : List (Turn Other)) :
    site.trace versioned act (first ++ second) =
      site.trace versioned act first ++
        (site.run versioned act first).trace versioned act second := by
  induction first generalizing site with
  | nil => rfl
  | cons turn turns ih =>
    rw [List.cons_append, trace, ih, trace, List.append_assoc]
    rfl

end Site

end Contracts

section Undisturbed

variable (versioned : Versioned σ) (act : Other → σ → σ) {site : Site σ ρ} {caller : Nat}
variable {stage : σ → Option σ} {next : σ → Bool → Session σ ρ}

namespace Site

/-- A unit that begins and finishes at once reads the store. -/
theorem undisturbed_reads (waits : site.callers caller = .waiting (.unit stage next))
    (reads : stage site.store = none) :
    (site.run versioned act [.begin caller, .finish caller]).store = site.store ∧
      (site.run versioned act [.begin caller, .finish caller]).callers caller =
        .waiting (next site.store true) := by
  constructor
  · simp [run, step, waits, committed, move, reads]
  · simp [run, step, waits, finished, move, reads]

/-- A unit that begins and finishes at once commits what it stages. -/
theorem undisturbed_commits (waits : site.callers caller = .waiting (.unit stage next)) {staged : σ}
    (stages : stage site.store = some staged)
    (within : versioned.revision site.store + 1 < versioned.limit) :
    (site.run versioned act [.begin caller, .finish caller]).store =
        versioned.advance staged site.store ∧
      (site.run versioned act [.begin caller, .finish caller]).callers caller =
        .waiting (next site.store true) := by
  constructor
  · simp [run, step, waits, committed, move, stages, Versioned.commit, within]
  · simp [run, step, waits, committed, finished, move, stages, Versioned.commit, within]

end Site

end Undisturbed

section Observers

variable {versioned : Versioned σ} {act : Other → σ → σ} {site : Site σ ρ}
variable {next : σ → Bool → Session σ ρ} {seen : σ → Prop} {value : ρ} {caller : Nat}

/-- A caller that only reads has begun on a snapshot with `seen`, or has answered. -/
def Caller.Begun (next : σ → Bool → Session σ ρ) (seen : σ → Prop) (value : ρ) (held : Caller σ ρ) :
    Prop :=
  (∃ snapshot, seen snapshot ∧ held = .working snapshot (fun _ => none) next) ∨
    held = .waiting (.answer value)

namespace Site

theorem answered_step (answered : site.callers caller = .waiting (.answer value))
    (turn : Turn Other) :
    (site.step versioned act turn).callers caller = .waiting (.answer value) := by
  cases turn with
  | begin worker =>
    simp only [step]
    split
    · rename_i stage next waits
      rw [callers_move]
      split
      · rename_i same
        subst same
        rw [answered] at waits
        cases waits
      · exact answered
    · exact answered
  | finish worker =>
    simp only [step, callers_move]
    split
    · rename_i same
      subst same
      simp only [finished, answered]
    · exact answered
  | elsewhere other =>
    simp only [step]
    split
    · exact answered
    · exact answered

theorem answered_run (answered : site.callers caller = .waiting (.answer value))
    (turns : List (Turn Other)) :
    (site.run versioned act turns).callers caller = .waiting (.answer value) := by
  induction turns generalizing site with
  | nil => exact answered
  | cons turn turns ih => exact ih (answered_step answered turn)

/-- A caller that does not begin stays where it is. -/
theorem unbegun_step {session : Session σ ρ} (waits : site.callers caller = .waiting session)
    {turn : Turn Other} (unbegun : turn ≠ .begin caller) :
    (site.step versioned act turn).callers caller = .waiting session := by
  cases turn with
  | begin worker =>
    have different : caller ≠ worker := fun same => unbegun (same ▸ rfl)
    simp only [step]
    split
    · rw [callers_move, if_neg different]
      exact waits
    · exact waits
  | finish worker =>
    simp only [step, callers_move]
    split
    · rename_i same
      subst same
      simp only [finished, waits]
    · exact waits
  | elsewhere other =>
    simp only [step]
    split
    · exact waits
    · exact waits

theorem unbegun_run {session : Session σ ρ} (waits : site.callers caller = .waiting session)
    {turns : List (Turn Other)} (unbegun : .begin caller ∉ turns) :
    (site.run versioned act turns).callers caller = .waiting session := by
  induction turns generalizing site with
  | nil => exact waits
  | cons turn turns ih =>
    obtain ⟨first, rest⟩ := not_or.mp (List.mem_cons.not.mp unbegun)
    exact ih (unbegun_step waits (Ne.symm first)) rest

theorem unbegun_trace {session : Session σ ρ} (waits : site.callers caller = .waiting session)
    {turns : List (Turn Other)} (unbegun : .begin caller ∉ turns) :
    ∀ commit ∈ site.trace versioned act turns, commit.caller ≠ caller := by
  induction turns generalizing site with
  | nil =>
    intro commit member
    cases member
  | cons turn turns ih =>
    obtain ⟨first, rest⟩ := not_or.mp (List.mem_cons.not.mp unbegun)
    intro commit member
    rcases List.mem_append.mp member with here | later
    · cases turn with
      | begin _ => cases here
      | elsewhere _ => cases here
      | finish worker =>
        simp only [commitOf, Option.mem_toList, Option.map_eq_some_iff] at here
        obtain ⟨after, commits, rfl⟩ := here
        intro same
        subst same
        simp [committed, waits] at commits
    · exact ih (unbegun_step waits (Ne.symm first)) rest commit later

variable (answers : ∀ snapshot, seen snapshot → next snapshot true = .answer value)
include answers

theorem begun_step (begun : (site.callers caller).Begun next seen value) (turn : Turn Other) :
    ((site.step versioned act turn).callers caller).Begun next seen value := by
  rcases begun with ⟨snapshot, saw, working⟩ | answered
  · cases turn with
    | begin worker =>
      simp only [step]
      split
      · rename_i stage next' waits
        rw [callers_move]
        split
        · rename_i same
          subst same
          rw [working] at waits
          cases waits
        · exact .inl ⟨snapshot, saw, working⟩
      · exact .inl ⟨snapshot, saw, working⟩
    | finish worker =>
      simp only [step, callers_move]
      split
      · rename_i same
        subst same
        right
        simp [finished, working, answers snapshot saw]
      · exact .inl ⟨snapshot, saw, working⟩
    | elsewhere other =>
      left
      simp only [step]
      split
      · exact ⟨snapshot, saw, working⟩
      · exact ⟨snapshot, saw, working⟩
  · exact .inr (answered_step answered turn)

theorem begun_run (begun : (site.callers caller).Begun next seen value)
    (turns : List (Turn Other)) :
    ((site.run versioned act turns).callers caller).Begun next seen value := by
  induction turns generalizing site with
  | nil => exact begun
  | cons turn turns ih => exact ih (begun_step answers begun turn)

theorem begun_finish (begun : (site.callers caller).Begun next seen value) :
    (site.step versioned act (.finish caller)).callers caller = .waiting (.answer value) := by
  rcases begun with ⟨snapshot, saw, working⟩ | answered
  · simp [step, callers_move, finished, working, answers snapshot saw]
  · exact answered_step answered _

omit answers in
theorem waits_begin (waits : site.callers caller = .waiting (.unit (fun _ => none) next))
    (saw : seen site.store) :
    ((site.step versioned act (.begin caller)).callers caller).Begun next seen value := by
  left
  refine ⟨site.store, saw, ?_⟩
  simp [step, waits, callers_move]

omit answers in
theorem waits_step (waits : site.callers caller = .waiting (.unit (fun _ => none) next))
    (saw : seen site.store) (turn : Turn Other) :
    (site.step versioned act turn).callers caller = .waiting (.unit (fun _ => none) next) ∨
      ((site.step versioned act turn).callers caller).Begun next seen value := by
  cases turn with
  | begin worker =>
    by_cases same : caller = worker
    · subst same
      exact .inr (waits_begin waits saw)
    · left
      simp only [step]
      split
      · rw [callers_move, if_neg same]
        exact waits
      · exact waits
  | finish worker =>
    left
    simp only [step, callers_move]
    split
    · rename_i same
      subst same
      simp only [finished, waits]
    · exact waits
  | elsewhere other =>
    left
    simp only [step]
    split
    · exact waits
    · exact waits

theorem observing_run (always : ∀ turns, seen (site.run versioned act turns).store)
    (waits : site.callers caller = .waiting (.unit (fun _ => none) next))
    (turns : List (Turn Other)) :
    (site.run versioned act turns).callers caller = .waiting (.unit (fun _ => none) next) ∨
      ((site.run versioned act turns).callers caller).Begun next seen value := by
  induction turns generalizing site with
  | nil => exact .inl waits
  | cons turn turns ih =>
    rcases waits_step waits (always []) turn with waits | begun
    · exact ih (fun later => always (turn :: later)) waits
    · exact .inr (begun_run answers begun turns)

/-- A caller that reads in one unit what the store always holds answers accordingly,
whatever happens before, during, and after its unit. -/
theorem observer_answers (always : ∀ turns, seen (site.run versioned act turns).store)
    (waits : site.callers caller = .waiting (.unit (fun _ => none) next))
    (before between after : List (Turn Other)) :
    (site.run versioned act
      (before ++ .begin caller :: (between ++ .finish caller :: after))).callers caller =
      .waiting (.answer value) := by
  rw [run_append]
  have begun : (((site.run versioned act before).step versioned act (.begin caller)).callers
      caller).Begun next seen value := by
    rcases observing_run answers always waits before with waits | begun
    · exact waits_begin waits (always before)
    · exact begun_step answers begun _
  change (((site.run versioned act before).step versioned act (.begin caller)).run versioned act
    (between ++ .finish caller :: after)).callers caller = _
  rw [run_append]
  exact answered_run (begun_finish answers (begun_run answers begun between)) after

omit answers in
/-- The same for a session that goes on with what it read, to its answer. -/
theorem observed_answers {look : σ → α} {goes : α → Session σ ρ} (seen : σ → Prop)
    (answers : ∀ snapshot, seen snapshot → goes (look snapshot) = .answer value)
    (always : ∀ turns, seen (site.run versioned act turns).store)
    (waits : site.callers caller = .waiting (.observe look >>= goes))
    (before between after : List (Turn Other)) :
    (site.run versioned act
      (before ++ .begin caller :: (between ++ .finish caller :: after))).callers caller =
      .waiting (.answer value) := by
  have read : site.callers caller =
      .waiting (.unit (fun _ => none) fun snapshot _ => goes (look snapshot)) := waits
  exact observer_answers answers always read before between after

end Site

end Observers

end OxideBatch.Lib
