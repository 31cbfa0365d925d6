import OxideBatch.Repository.Attempts

/-! The attempts of every instance over whole runs: at most one of them is live, and their
numbers are never given twice, however units of work interleave and whatever is purged. -/

namespace OxideBatch.Repository

open OxideBatch.Core OxideBatch.Plan Program
open Std (ExtTreeMap ExtTreeSet)
open Tables Ledger

variable {reader : DefinitionReader} {state state' : MemoryState}

section Runs

variable {entries front rest : List Entry}

/-- What the generator hands out over a list of operations. -/
def drawnBy (entries : List Entry) : List (JobInstanceId ⊕ JobExecutionId) :=
  entries.flatMap (·.supply.ids)

/-- A journal runs the ledger from the empty tables. -/
theorem Follows.draws (follows : Follows reader entries state) :
    Keyed state ∧ Draws (drawnBy entries) .empty state := by
  induction follows with
  | start => exact ⟨keyed_empty, .still rfl⟩
  | revised revision follows ih => exact ⟨ih.1.same rfl, ih.2.followed rfl⟩
  | performed follows done ih =>
    rename_i entries entry after
    refine ⟨(Operation.perform_changes ih.1 done).keyed ih.1, ?_⟩
    unfold drawnBy
    rw [List.flatMap_append, List.flatMap_singleton]
    exact ih.2.trans (Operation.perform_draws ih.1 done)

/-- The ledger behind a journal depends on the journal only. -/
theorem Follows.ledger_unique (follows : Follows reader entries state)
    (again : Follows reader entries state') : state'.ledger = state.ledger := by
  have ends : ∀ {entries : List Entry} {state : MemoryState}, Follows reader entries state →
      entries = [] ∧ state.ledger = MemoryState.empty.ledger ∨
      ∃ earlier entry after, entries = earlier ++ [entry] ∧
        entry.operation.perform reader entry.supply entry.createdPlans entry.before =
          .ok ((), after) ∧ state.ledger = after.ledger := by
    intro entries state follows
    induction follows with
    | start => exact .inl ⟨rfl, rfl⟩
    | revised revision follows ih => exact ih
    | performed follows done ih => exact .inr ⟨_, _, _, rfl, done, rfl⟩
  rcases ends follows with ⟨rfl, same⟩ | ⟨earlier, entry, after, rfl, done, same⟩
  · rcases ends again with ⟨_, same'⟩ | ⟨_, _, _, made, _⟩
    · exact same'.trans same.symm
    · simp at made
  · rcases ends again with ⟨made, _⟩ | ⟨earlier', entry', after', made, done', same'⟩
    · simp at made
    · obtain ⟨rfl, last⟩ := List.append_inj' made rfl
      obtain rfl := List.singleton_inj.mp last
      rw [done] at done'
      cases done'
      exact same'.trans same.symm

/-- A longer journal goes on from where a shorter one led to. -/
theorem Follows.onward (follows : Follows reader (front ++ rest) state)
    (early : Follows reader front state') : Draws (drawnBy rest) state' state := by
  generalize joined : front ++ rest = entries at follows
  induction follows generalizing rest with
  | start =>
    obtain ⟨rfl, rfl⟩ := List.append_eq_nil_iff.mp joined
    exact .still (early.ledger_unique .start)
  | revised revision follows ih => exact (ih joined).followed rfl
  | performed follows done ih =>
    rename_i entries entry after
    rcases List.eq_nil_or_concat rest with rfl | ⟨others, last, rfl⟩
    · rw [List.append_nil] at joined
      subst joined
      exact .still (early.ledger_unique (.performed follows done))
    · rw [List.concat_eq_append, ← List.append_assoc] at joined
      obtain ⟨same, last⟩ := List.append_inj' joined rfl
      obtain rfl := List.singleton_inj.mp last
      unfold drawnBy
      rw [List.concat_eq_append, List.flatMap_append, List.flatMap_singleton]
      exact (ih same).trans (Operation.perform_draws follows.draws.1 done)

end Runs

section Journals

/-- What a generator hands out to the operation of an event. -/
def Event.ids : Event → List (JobInstanceId ⊕ JobExecutionId)
  | .operate _ supply _ => supply.ids
  | _ => []

namespace Journaled

variable {journaled : Journaled} {events : List Event}

/-- The journals hold operations of the events, in their order. -/
structure Ordered (events : List Event) (journaled : Journaled) : Prop where
  committed : (drawnBy journaled.committed).Sublist (events.flatMap Event.ids)
  staged : ∀ handle : Nat,
    (drawnBy (journaled.staged[handle]?.getD [])).Sublist (events.flatMap Event.ids)

theorem Ordered.later (ordered : Ordered events journaled) (event : Event) :
    Ordered (events ++ [event]) journaled := by
  have more : (events.flatMap Event.ids).Sublist ((events ++ [event]).flatMap Event.ids) := by
    rw [List.flatMap_append]
    exact List.sublist_append_left _ _
  exact ⟨ordered.committed.trans more, fun handle => (ordered.staged handle).trans more⟩

theorem Ordered.ended (ordered : Ordered events journaled) (world : World) (handle : Nat) :
    Ordered events ⟨world, journaled.committed, journaled.staged.erase handle⟩ := by
  refine ⟨ordered.committed, fun other => ?_⟩
  change (drawnBy ((journaled.staged.erase handle)[other]?.getD [])).Sublist _
  rw [lookup_erase]
  split
  · exact List.nil_sublist _
  · exact ordered.staged other

theorem Ordered.stored (ordered : Ordered events journaled) (world : World) (handle : Nat)
    {entries : List Entry} (among : (drawnBy entries).Sublist (events.flatMap Event.ids)) :
    Ordered events ⟨world, journaled.committed, journaled.staged.insert handle entries⟩ := by
  refine ⟨ordered.committed, fun other => ?_⟩
  change (drawnBy ((journaled.staged.insert handle entries)[other]?.getD [])).Sublist _
  rw [lookup_insert]
  split
  · exact among
  · exact ordered.staged other

theorem Ordered.step (ordered : Ordered events journaled) (event : Event) :
    Ordered (events ++ [event]) (journaled.step reader event) := by
  have later := ordered.later event
  cases event with
  | begin handle => exact later.stored _ handle later.committed
  | rollback handle => exact later.ended _ handle
  | operate handle supply operation =>
    unfold Journaled.step
    dsimp only
    split
    · exact ⟨later.committed, later.staged⟩
    · split
      · refine later.stored _ handle ?_
        unfold drawnBy
        rw [List.flatMap_append, List.flatMap_append, List.flatMap_singleton,
          List.flatMap_singleton]
        exact (ordered.staged handle).append (List.Sublist.refl _)
      · exact later.ended _ handle
  | commit handle =>
    unfold Journaled.step
    dsimp only
    split
    · exact ⟨later.committed, later.staged⟩
    · split
      · exact ⟨later.staged handle, (later.ended journaled.world handle).staged⟩
      · exact later.ended _ handle

theorem ordered_run (reader : DefinitionReader) (events : List Event) :
    Ordered events (new.run reader events) := by
  induction events using List.reverseRecOn with
  | nil => exact ⟨List.nil_sublist _, fun handle => by simp [run, new, drawnBy]⟩
  | append_singleton events event ih =>
    unfold run at *
    rw [List.foldl_append]
    exact ih.step event

/-- A unit that could still commit has the committed operations behind it. -/
def Current (journaled : Journaled) : Prop :=
  ∀ (handle : Nat) (unit : UnitOfWork), journaled.world.units[handle]? = some unit →
    unit.baseRevision ≤ journaled.world.committed.revision ∧
      (unit.baseRevision = journaled.world.committed.revision →
        journaled.committed <+: journaled.staged[handle]?.getD [])

private theorem operate_base {supply : Supply} {operation : Operation} {unit unit' : UnitOfWork}
    (done : unit.operate reader supply operation = .ok unit') :
    unit'.baseRevision = unit.baseRevision := by
  simp only [UnitOfWork.operate, bind_ok, pure_ok] at done
  obtain ⟨_, _, rfl⟩ := done
  rfl

private theorem commit_advances {unit : UnitOfWork} {current committed : MemoryState}
    (done : unit.commit current = .ok committed) :
    unit.baseRevision = current.revision ∧ committed.revision = current.revision + 1 := by
  unfold UnitOfWork.commit at done
  split at done
  · cases done
  · rename_i same
    simp only [bind_ok, require_ok, pure_ok, Core.checkedAdd] at done
    obtain ⟨revision, advanced, rfl⟩ := done
    obtain ⟨_, next⟩ := Option.ite_none_right_eq_some.mp advanced
    exact ⟨(not_not.mp same).symm, (Option.some.inj next).symm⟩

theorem Current.ended (current : Current journaled) (handle : Nat) :
    Current ⟨{ journaled.world with units := journaled.world.units.erase handle },
      journaled.committed, journaled.staged.erase handle⟩ := by
  intro other unit found
  change (journaled.world.units.erase handle)[other]? = some unit at found
  rw [lookup_erase] at found
  split at found
  · cases found
  · rename_i different
    rw [lookup_erase, if_neg different]
    exact current other unit found

theorem Current.stored (current : Current journaled) {handle : Nat} {unit : UnitOfWork}
    {entries : List Entry} (base : unit.baseRevision ≤ journaled.world.committed.revision)
    (behind : unit.baseRevision = journaled.world.committed.revision →
      journaled.committed <+: entries) :
    Current ⟨{ journaled.world with units := journaled.world.units.insert handle unit },
      journaled.committed, journaled.staged.insert handle entries⟩ := by
  intro other unit' found
  change (journaled.world.units.insert handle unit)[other]? = some unit' at found
  rw [lookup_insert] at found
  split at found
  · rename_i same
    cases found
    rw [lookup_insert, if_pos same]
    exact ⟨base, behind⟩
  · rename_i different
    rw [lookup_insert, if_neg different]
    exact current other unit' found

/-- What is committed stays in front of what is committed later. -/
theorem Current.step (current : Current journaled) (event : Event) :
    Current (journaled.step reader event) ∧
      journaled.committed <+: (journaled.step reader event).committed := by
  cases event with
  | begin handle =>
    exact ⟨current.stored (le_refl _) fun _ => List.prefix_refl _, List.prefix_refl _⟩
  | rollback handle => exact ⟨current.ended handle, List.prefix_refl _⟩
  | operate handle supply operation =>
    unfold Journaled.step World.step
    cases found : journaled.world.units[handle]? with
    | none =>
      simp only [found]
      exact ⟨current, List.prefix_refl _⟩
    | some unit =>
      cases done : unit.operate reader supply operation with
      | error failure =>
        simp only [found, done]
        exact ⟨current.ended handle, List.prefix_refl _⟩
      | ok unit' =>
        obtain ⟨base, behind⟩ := current handle unit found
        have same := operate_base done
        simp only [found, done]
        exact ⟨current.stored (same ▸ base) fun level =>
          (behind (same.symm.trans level)).trans (List.prefix_append _ _), List.prefix_refl _⟩
  | commit handle =>
    unfold Journaled.step World.step
    cases found : journaled.world.units[handle]? with
    | none =>
      simp only [found]
      exact ⟨current, List.prefix_refl _⟩
    | some unit =>
      cases done : unit.commit journaled.world.committed with
      | error failure =>
        simp only [found, done]
        exact ⟨current.ended handle, List.prefix_refl _⟩
      | ok committed =>
        simp only [found, done]
        obtain ⟨level, advanced⟩ := commit_advances done
        refine ⟨fun other unit' opened => ?_, (current handle unit found).2 level⟩
        -- the other units began at a revision that has passed
        have passed := ((current.ended handle) other unit' opened).1
        change unit'.baseRevision ≤ committed.revision ∧
          (unit'.baseRevision = committed.revision → _)
        change unit'.baseRevision ≤ journaled.world.committed.revision at passed
        exact ⟨by omega, fun level' => by omega⟩

private theorem current_run (reader : DefinitionReader) (events : List Event) :
    Current (new.run reader events) := by
  induction events using List.reverseRecOn with
  | nil => exact fun handle unit found => by simp [run, new, World.new] at found
  | append_singleton events event ih =>
    unfold run at *
    rw [List.foldl_append]
    exact (ih.step event).1

private theorem committed_prefix (reader : DefinitionReader) (events more : List Event) :
    (new.run reader events).committed <+: (new.run reader (events ++ more)).committed := by
  induction more using List.reverseRecOn with
  | nil => rw [List.append_nil]
  | append_singleton more event ih =>
    rw [← List.append_assoc]
    refine ih.trans ?_
    have step : (new.run reader (events ++ more)).committed <+:
        ((new.run reader (events ++ more)).step reader event).committed :=
      ((current_run reader (events ++ more)).step event).2
    unfold run at *
    rw [List.foldl_append (l := events ++ more)]
    exact step

end Journaled

end Journals

section Attempts

theorem sound_empty : Sound MemoryState.empty.ledger where
  inverse key owner := by
    simp [MemoryState.ledger, CoreTables.ledger, MemoryState.core, MemoryState.empty]
  listed owner := by
    simp [MemoryState.ledger, CoreTables.ledger, MemoryState.core, MemoryState.empty]
  recorded entry attempt records := by
    simp [MemoryState.ledger, CoreTables.ledger, MemoryState.core, MemoryState.empty] at records
  live entry attempt records := by
    simp [MemoryState.ledger, CoreTables.ledger, MemoryState.core, MemoryState.empty] at records

theorem numbered_empty : Numbered (fun _ => False) MemoryState.empty.ledger := by
  refine ⟨?_, ?_, ?_, ?_, ?_, ?_⟩ <;>
    simp [MemoryState.ledger, CoreTables.ledger, MemoryState.core, MemoryState.empty]

/-- Keys and identifiers of instances are inverse, executions are listed under their
instances, and of an instance at most one is not finished: the last. -/
structure OneLive (state : MemoryState) : Prop where
  inverse : ∀ (key : JobInstanceKey) (id : JobInstanceId), state.instancesByKey[key]? = some id ↔
    ∃ row, state.instancesById[id]? = some row ∧ row.key = key
  last : ∀ (id : JobExecutionId) (row : JobExecution), state.jobExecutions[id]? = some row →
    ∃ listed, state.jobExecutionsByInstance[row.jobInstanceId]? = some listed ∧ id ∈ listed ∧
      (row.status.isFinished = false → listed.getLast? = some id)
  unique : ∀ (first second : JobExecutionId) (row row' : JobExecution),
    state.jobExecutions[first]? = some row → state.jobExecutions[second]? = some row' →
    row'.jobInstanceId = row.jobInstanceId → row.status.isFinished = false →
    row'.status.isFinished = false → first = second

/-- However units of work interleave, no instance has two live attempts. -/
theorem one_live_attempt (reader : DefinitionReader) (events : List Event) :
    OneLive (World.new.run reader events).committed := by
  obtain ⟨_, drawn, _, run⟩ := (Journaled.run_follows reader events).draws
  generalize (World.new.run reader events).committed = state at run
  have sound : Sound state.ledger := sound_empty.run run
  refine ⟨fun key id => ?_, fun id row stored => ?_, ?_⟩
  · have inverse := sound.inverse key id
    change state.instancesByKey[key]? = some id ↔
      (state.instancesById[id]?).map (·.key) = some key at inverse
    rw [inverse, Option.map_eq_some_iff]
  · obtain ⟨listed, lists, member⟩ := sound.recorded id _ (record_ledger stored)
    refine ⟨listed, lists, member, fun unfinished => ?_⟩
    obtain ⟨listed', lists', last⟩ := sound.live id _ (record_ledger stored) (by simp [unfinished])
    rw [lists] at lists'
    cases lists'
    exact last
  · intro first second row row' stored stored' same unfinished unfinished'
    exact sound.unique_live (record_ledger stored) (record_ledger stored') same
      (by simp [unfinished]) (by simp [unfinished'])

/-- An execution keeps its instance and its number and once finished stays so, its number is
never given to another execution of the instance, and the executions of an instance are
listed with increasing numbers. -/
structure AttemptsKept (earlier later : MemoryState) : Prop where
  kept : ∀ (id : JobExecutionId) (row row' : JobExecution), earlier.jobExecutions[id]? = some row →
    later.jobExecutions[id]? = some row' → row'.jobInstanceId = row.jobInstanceId ∧
      (row.status.isFinished = true → row'.status.isFinished = true) ∧
      ∀ number number', earlier.executionAttempts[id]? = some number →
        later.executionAttempts[id]? = some number' → number' = number
  distinct : ∀ (first second : JobExecutionId) (row row' : JobExecution), first ≠ second →
    earlier.jobExecutions[first]? = some row → later.jobExecutions[second]? = some row' →
    row'.jobInstanceId = row.jobInstanceId →
    ∀ number number', earlier.executionAttempts[first]? = some number →
      later.executionAttempts[second]? = some number' → number ≠ number'
  increasing : ∀ (owner : JobInstanceId) (listed : List JobExecutionId),
    later.jobExecutionsByInstance[owner]? = some listed → listed.Pairwise fun first second =>
      ∀ row row' : JobExecution, later.jobExecutions[first]? = some row →
        later.jobExecutions[second]? = some row' →
        ∀ number number', later.executionAttempts[first]? = some number →
          later.executionAttempts[second]? = some number' → number < number'

/-- Two committed states of one run whose generator hands out no identifier twice. -/
theorem attempts_keep_numbers (reader : DefinitionReader) (events more : List Event)
    (once : ((events ++ more).flatMap Event.ids).Nodup) :
    AttemptsKept (World.new.run reader events).committed
      (World.new.run reader (events ++ more)).committed := by
  have early := Journaled.run_follows reader events
  have late := Journaled.run_follows reader (events ++ more)
  obtain ⟨rest, journal⟩ := Journaled.committed_prefix reader events more
  have apart : (drawnBy (Journaled.new.run reader events).committed ++ drawnBy rest).Nodup := by
    have sub := (Journaled.ordered_run reader (events ++ more)).committed
    rw [← journal] at sub
    unfold drawnBy at sub ⊢
    rw [List.flatMap_append] at sub
    exact once.sublist sub
  rw [List.nodup_append] at apart
  obtain ⟨_, drawn, among, run⟩ := early.draws
  obtain ⟨drawn', among', run'⟩ := (journal ▸ late).onward early
  generalize (World.new.run reader events).committed = earlier at run run'
  generalize (World.new.run reader (events ++ more)).committed = later at run'
  have sound : Sound earlier.ledger := sound_empty.run run
  have numbered : Numbered (Used (fun _ => False) drawn) earlier.ledger :=
    numbered_empty.run sound_empty run (fun _ _ seen => seen) (apart.1.sublist among)
  have fresh : ∀ id ∈ drawn', ¬ Used (fun _ => False) drawn id := by
    rintro id member (seen | seen)
    · exact seen
    · exact apart.2.2 id (among.mem seen) id (among'.mem member) rfl
  have history : Later (Used (fun _ => False) drawn) earlier.ledger later.ledger :=
    (Later.refl _).run sound run' fresh
  have numbered' := numbered.run sound run' fresh (apart.2.1.sublist among')
  refine ⟨fun id row row' stored stored' => ?_, ?_, ?_⟩
  · have moves := history.moves numbered sound (record_ledger stored) (record_ledger stored')
    refine ⟨moves.owner, fun finished => ?_, fun number number' held held' => ?_⟩
    · simpa [finished] using moves.settled
    · have same := moves.number
      simpa [held, held'] using same
  · intro first second row row' different stored stored' same number number' held held'
    have distinct := history.distinct numbered sound different (record_ledger stored)
      (record_ledger stored') same
    simpa [held, held'] using distinct
  · intro owner listed lists
    refine (numbered'.increasing owner listed lists).imp ?_
    intro first second holds row row' stored stored' number number' held held'
    have less := holds _ _ (record_ledger stored) (record_ledger stored')
    simpa [held, held'] using less

/-- The first attempt of an instance fails. -/
def firstFailed : List Event :=
  unitEvents 1
    [(supplyOf 1, .selectOrCreateJobInstance ⟨⟨"nightly", Eq.refl true⟩, []⟩),
      (supplyOf 2, .createJobExecution 1 nightlyDefinition none),
      (⟨none, none, none, 0, 0⟩, .transitionJobExecution 2 .initial
        (.failed 0 ⟨.userComponent, 0⟩))]

/-- The second one is launched. -/
def secondLaunched : List Event :=
  unitEvents 2
    [(supplyOf 3, .createJobExecution 1 nightlyDefinition none)]

theorem attempts_keep_numbers_restarted :
    let later := (World.new.run blindReader (firstFailed ++ secondLaunched)).committed
    AttemptsKept (World.new.run blindReader firstFailed).committed later ∧
      later.executionAttempts[(2 : JobExecutionId)]? = some 1 ∧
      later.executionAttempts[(3 : JobExecutionId)]? = some 2 :=
  ⟨attempts_keep_numbers blindReader firstFailed secondLaunched (by decide +kernel),
    by decide +kernel, by decide +kernel⟩

end Attempts

end OxideBatch.Repository
