import OxideBatch.Repository.Changes

/-! The operations behind a committed state. Units of work interleave, but a commit
succeeds only over the revision its unit began from, so what is committed is the result
of the committed units one after the other. -/

namespace OxideBatch.Repository

open OxideBatch.Core OxideBatch.Plan Program
open Std (ExtTreeMap ExtTreeSet)
open Tables

/-- An operation that returned, with the tables it was performed on. -/
structure Entry where
  before : MemoryState
  supply : Supply
  createdPlans : ExtTreeSet StepExecutionId
  operation : Operation

/-- The tables a list of operations leads to; a commit renews the revision. -/
inductive Follows (reader : DefinitionReader) : List Entry → MemoryState → Prop where
  | start : Follows reader [] .empty
  | revised {entries : List Entry} {state : MemoryState} (revision : Nat)
      (follows : Follows reader entries state) : Follows reader entries { state with revision }
  | performed {entries : List Entry} {entry : Entry} {state' : MemoryState}
      (follows : Follows reader entries entry.before)
      (done : entry.operation.perform reader entry.supply entry.createdPlans entry.before =
        .ok ((), state')) : Follows reader (entries ++ [entry]) state'

/-- The world with the operations behind its committed state and behind each unit. -/
structure Journaled where
  world : World
  committed : List Entry
  staged : ExtTreeMap Nat (List Entry)

namespace Journaled

def new : Journaled := ⟨.new, [], ∅⟩

/-- One event of the world; the entries follow its units. -/
def step (reader : DefinitionReader) (journaled : Journaled) (event : Event) : Journaled :=
  let world := journaled.world.step reader event
  let entries (handle : Nat) := journaled.staged[handle]?.getD []
  match event with
  | .begin handle => ⟨world, journaled.committed, journaled.staged.insert handle journaled.committed⟩
  | .operate handle supply operation =>
    match journaled.world.units[handle]? with
    | none => ⟨world, journaled.committed, journaled.staged⟩
    | some unit =>
      match unit.operate reader supply operation with
      | .ok _ => ⟨world, journaled.committed, journaled.staged.insert handle
          (entries handle ++ [⟨unit.staged, supply, unit.createdPartitionPlans, operation⟩])⟩
      | .error _ => ⟨world, journaled.committed, journaled.staged.erase handle⟩
  | .commit handle =>
    match journaled.world.units[handle]? with
    | none => ⟨world, journaled.committed, journaled.staged⟩
    | some unit =>
      match unit.commit journaled.world.committed with
      | .ok _ => ⟨world, entries handle, journaled.staged.erase handle⟩
      | .error _ => ⟨world, journaled.committed, journaled.staged.erase handle⟩
  | .rollback handle => ⟨world, journaled.committed, journaled.staged.erase handle⟩

def run (reader : DefinitionReader) (journaled : Journaled) (events : List Event) : Journaled :=
  events.foldl (step reader) journaled

variable {reader : DefinitionReader} {journaled : Journaled}

private theorem step_world (event : Event) :
    (journaled.step reader event).world = journaled.world.step reader event := by
  cases event with
  | begin handle => rfl
  | rollback handle => rfl
  | operate handle supply operation =>
    unfold step
    dsimp only
    split
    · rfl
    · split <;> rfl
  | commit handle =>
    unfold step
    dsimp only
    split
    · rfl
    · split <;> rfl

private theorem run_world (events : List Event) :
    (journaled.run reader events).world = journaled.world.run reader events := by
  induction events generalizing journaled with
  | nil => rfl
  | cons event events ih =>
    change ((journaled.step reader event).run reader events).world = _
    rw [ih, step_world]
    rfl

/-- The committed state and the state of every open unit are led to by their entries. -/
structure Faithful (reader : DefinitionReader) (journaled : Journaled) : Prop where
  committed : Follows reader journaled.committed journaled.world.committed
  staged : ∀ (handle : Nat) (unit : UnitOfWork), journaled.world.units[handle]? = some unit →
    Follows reader (journaled.staged[handle]?.getD []) unit.staged

private theorem faithful_new (reader : DefinitionReader) : Faithful reader new where
  committed := .start
  staged handle unit found := by simp [new, World.new] at found

/-- A unit that ends leaves the others as they are. -/
theorem Faithful.ended (faithful : Faithful reader journaled) (handle : Nat) :
    Faithful reader ⟨{ journaled.world with units := journaled.world.units.erase handle },
      journaled.committed, journaled.staged.erase handle⟩ := by
  refine ⟨faithful.committed, fun other unit found => ?_⟩
  change (journaled.world.units.erase handle)[other]? = some unit at found
  rw [lookup_erase] at found
  split at found
  · cases found
  · rename_i different
    rw [lookup_erase, if_neg different]
    exact faithful.staged other unit found

/-- A unit that opens or goes on takes its own entries along. -/
theorem Faithful.stored (faithful : Faithful reader journaled) {handle : Nat} {unit : UnitOfWork}
    {entries : List Entry} (follows : Follows reader entries unit.staged) :
    Faithful reader ⟨{ journaled.world with units := journaled.world.units.insert handle unit },
      journaled.committed, journaled.staged.insert handle entries⟩ := by
  refine ⟨faithful.committed, fun other unit' found => ?_⟩
  change (journaled.world.units.insert handle unit)[other]? = some unit' at found
  rw [lookup_insert] at found
  split at found
  · rename_i same
    cases found
    rw [lookup_insert, if_pos same]
    exact follows
  · rename_i different
    rw [lookup_insert, if_neg different]
    exact faithful.staged other unit' found

private theorem operate_performs {supply : Supply} {operation : Operation} {unit unit' : UnitOfWork}
    (done : unit.operate reader supply operation = .ok unit') :
    operation.perform reader supply unit.createdPartitionPlans unit.staged =
      .ok ((), unit'.staged) := by
  simp only [UnitOfWork.operate, bind_ok, pure_ok] at done
  obtain ⟨⟨_, staged⟩, done, rfl⟩ := done
  exact done

theorem commit_revises {unit : UnitOfWork} {current committed : MemoryState}
    (done : unit.commit current = .ok committed) :
    ∃ revision, committed = { unit.staged with revision } := by
  unfold UnitOfWork.commit at done
  split at done
  · cases done
  · simp only [bind_ok, pure_ok] at done
    obtain ⟨revision, _, rfl⟩ := done
    exact ⟨revision, rfl⟩

theorem Faithful.step (faithful : Faithful reader journaled) (event : Event) :
    Faithful reader (journaled.step reader event) := by
  cases event with
  | begin handle => exact faithful.stored faithful.committed
  | rollback handle => exact faithful.ended handle
  | operate handle supply operation =>
    unfold Journaled.step World.step
    cases found : journaled.world.units[handle]? with
    | none =>
      simp only [found]
      exact faithful
    | some unit =>
      cases done : unit.operate reader supply operation with
      | error failure =>
        simp only [found, done]
        exact faithful.ended handle
      | ok unit' =>
        simp only [found, done]
        exact faithful.stored (.performed (faithful.staged handle unit found)
          (operate_performs done))
  | commit handle =>
    unfold Journaled.step World.step
    cases found : journaled.world.units[handle]? with
    | none =>
      simp only [found]
      exact faithful
    | some unit =>
      cases done : unit.commit journaled.world.committed with
      | error failure =>
        simp only [found, done]
        exact faithful.ended handle
      | ok committed =>
        simp only [found, done]
        obtain ⟨revision, rfl⟩ := commit_revises done
        exact ⟨.revised revision (faithful.staged handle unit found), (faithful.ended handle).staged⟩

theorem Faithful.run (faithful : Faithful reader journaled) (events : List Event) :
    Faithful reader (journaled.run reader events) := by
  induction events generalizing journaled with
  | nil => exact faithful
  | cons event events ih => exact ih (faithful.step event)

/-- What any run commits is the result of the operations in its journal. -/
theorem run_follows (reader : DefinitionReader) (events : List Event) :
    Follows reader (new.run reader events).committed
      (World.new.run reader events).committed := by
  have world : (new.run reader events).world = World.new.run reader events := run_world events
  rw [← world]
  exact ((faithful_new reader).run events).committed

/-- The states of a run with the operations behind them: the committed one, and the one of
each open unit. -/
def Reaches (journaled : Journaled) (entries : List Entry) (state : MemoryState) : Prop :=
  (entries = journaled.committed ∧ state = journaled.world.committed) ∨
    ∃ (handle : Nat) (unit : UnitOfWork), journaled.world.units[handle]? = some unit ∧
      entries = journaled.staged[handle]?.getD [] ∧ state = unit.staged

theorem reaches_committed (reader : DefinitionReader) (events : List Event) :
    (new.run reader events).Reaches (new.run reader events).committed
      (World.new.run reader events).committed := by
  have world : (new.run reader events).world = World.new.run reader events := run_world events
  exact .inl ⟨rfl, by rw [world]⟩

theorem Reaches.follows {events : List Event} {entries : List Entry} {state : MemoryState}
    (reached : (new.run reader events).Reaches entries state) : Follows reader entries state := by
  have faithful := (faithful_new reader).run events
  rcases reached with ⟨rfl, rfl⟩ | ⟨handle, unit, found, rfl, rfl⟩
  · exact faithful.committed
  · exact faithful.staged handle unit found

end Journaled

section Invariants

variable {reader : DefinitionReader} {entries : List Entry} {state state' : MemoryState}

/-- The operations whose one change a condition may be about. -/
def Operation.guarded : Operation → Bool
  | transitionJobExecution .. | enrichJobExitStatus .. | commitRepeatIteration ..
  | applyPurge .. => true
  | _ => false

/-- A guarded operation is at most one change. -/
theorem Operation.perform_single {supply : Supply} {createdPlans : ExtTreeSet StepExecutionId}
    {operation : Operation} {answer : Unit} (guarded : operation.guarded = true)
    (done : operation.perform reader supply createdPlans state = .ok (answer, state')) :
    Change reader operation state state' := by
  cases operation with
  | transitionJobExecution id expected transition =>
    obtain ⟨_, done⟩ := discard_yields.mp done
    exact .moved (transitionJobExecution_moves done)
  | enrichJobExitStatus id expected exitStatus =>
    obtain ⟨_, done⟩ := discard_yields.mp done
    exact .moved (enrichJobExitStatus_moves done)
  | commitRepeatIteration request =>
    obtain ⟨_, done⟩ := discard_yields.mp done
    rcases commitRepeatIteration_effect done with ⟨rfl, _⟩ | ⟨rfl, _⟩
    · exact .quiet (SameCore.refl _)
    · exact .repeated rfl done
  | applyPurge plan =>
    obtain ⟨_, done⟩ := discard_yields.mp done
    exact applyPurge_change done
  | _ => cases guarded

theorem keyed_empty : Keyed .empty where
  instances _ _ found := by simp [MemoryState.empty] at found
  executions _ _ found := by simp [MemoryState.empty] at found
  steps _ _ found := by simp [MemoryState.empty] at found

/-- The rule for invariants of the core tables: they hold at the start, and every change
that is allowed where it is made keeps them. -/
theorem Follows.invariant {Holds : CoreTables → Prop} (Allowed : MemoryState → Operation → Prop)
    (start : Holds MemoryState.empty.core)
    (keeps : ∀ {operation state state'}, Change reader operation state state' →
      (operation.guarded = true → Allowed state operation) → Keyed state → Holds state.core →
      Holds state'.core)
    (follows : Follows reader entries state)
    (allowed : ∀ entry ∈ entries, Allowed entry.before entry.operation) :
    Keyed state ∧ Holds state.core := by
  induction follows with
  | start => exact ⟨keyed_empty, start⟩
  | revised revision follows ih =>
    obtain ⟨keyed, holds⟩ := ih allowed
    exact ⟨keyed.same rfl, holds⟩
  | performed follows done ih =>
    rename_i entries entry after
    obtain ⟨keyed, holds⟩ := ih fun other member => allowed other (List.mem_append_left _ member)
    have permitted := allowed entry (by simp)
    cases guarded : entry.operation.guarded with
    | true =>
      have change := Operation.perform_single guarded done
      exact ⟨change.keyed keyed, keeps change (fun _ => permitted) keyed holds⟩
    | false =>
      have changes := Operation.perform_changes keyed done
      refine ⟨changes.keyed keyed, ?_⟩
      clear done
      induction changes with
      | refl => exact holds
      | tail before change held =>
        refine keeps change (fun contradiction => ?_) (Changes.keyed before keyed) held
        rw [guarded] at contradiction
        cases contradiction

/-- Every entry was performed on a state that the entries before it lead to. -/
theorem Follows.each (follows : Follows reader entries state) :
    ∀ entry ∈ entries, ∃ earlier, earlier <+: entries ∧ Follows reader earlier entry.before := by
  induction follows with
  | start => simp
  | revised revision follows ih => exact ih
  | performed follows done ih =>
    rename_i earlier last after
    intro entry member
    rcases List.mem_append.mp member with before | here
    · obtain ⟨front, leads, held⟩ := ih entry before
      exact ⟨front, leads.trans (List.prefix_append _ _), held⟩
    · obtain rfl := List.mem_singleton.mp here
      exact ⟨earlier, List.prefix_append _ _, follows⟩

end Invariants

section Instances

def nightlyDefinition : DefinitionIdentity :=
  ⟨some ⟨"nightly", Eq.refl true⟩, ⟨"r1", Eq.refl true⟩, 4, 0, []⟩

/-- A generator that answers with one number. -/
def supplyOf (number : Nat) : Supply :=
  ⟨some (.numbered number), some (.numbered number), some (.numbered number), 0, 0⟩

/-- One unit of work with its operations. -/
def unitEvents (handle : Nat) (operations : List (Supply × Operation)) : List Event :=
  .begin handle :: operations.map (fun entry => .operate handle entry.1 entry.2) ++
    [.commit handle]

/-- A reader of no definition. -/
def blindReader : DefinitionReader :=
  ⟨fun _ => false, fun _ => false, fun _ _ => false, fun _ _ => none, fun _ key => key.value,
    fun _ => 0⟩

end Instances

end OxideBatch.Repository
