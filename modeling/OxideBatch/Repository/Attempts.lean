import OxideBatch.Lib.Ledger
import OxideBatch.Repository.Instances

/-! The instances and their executions as a ledger of attempts: every change of the tables
is a run of moves of the ledger, purges included. -/

namespace OxideBatch.Repository

open OxideBatch.Core OxideBatch.Plan Program
open Std (ExtTreeMap ExtTreeSet)
open Tables Ledger

variable {reader : DefinitionReader} {operation : Operation} {state state' : MemoryState}

section View

/-- The ledger of the tables: an execution is live until it is finished. -/
def CoreTables.ledger (tables : CoreTables) :
    Ledger JobInstanceKey JobInstanceId JobExecutionId where
  owner key := tables.instancesByKey[key]?
  key id := tables.instancesById[id]?.map (·.key)
  record id := tables.jobExecutions[id]?.map fun row =>
    ⟨row.jobInstanceId, !row.status.isFinished, tables.executionAttempts[id]?.getD 0⟩
  listed id := tables.jobExecutionsByInstance[id]?
  last id := tables.nextExecutionAttemptByInstance[id]?.getD 0

/-- The ledger of a state. -/
def MemoryState.ledger (state : MemoryState) :
    Ledger JobInstanceKey JobInstanceId JobExecutionId := state.core.ledger

theorem record_ledger {id : JobExecutionId} {row : JobExecution}
    (stored : state.jobExecutions[id]? = some row) :
    state.ledger.record id = some
      ⟨row.jobInstanceId, !row.status.isFinished, state.executionAttempts[id]?.getD 0⟩ := by
  change (state.jobExecutions[id]?).map _ = _
  rw [stored, Option.map_some]
  rfl

private theorem record_ledger_none {id : JobExecutionId} (unused : id ∉ state.jobExecutions) :
    state.ledger.record id = none := by
  change (state.jobExecutions[id]?).map _ = _
  rw [not_mem_iff_lookup.mp unused, Option.map_none]

end View

section Moves

private theorem ledger_entered {tables : CoreTables} (added : JobInstance) :
    { tables with
      instancesByKey := tables.instancesByKey.insert added.key added.id
      instancesById := tables.instancesById.insert added.id added
      jobExecutionsByInstance := tables.jobExecutionsByInstance.insert added.id [] }.ledger =
      tables.ledger.opened added.key added.id := by
  unfold CoreTables.ledger Ledger.opened
  congr 1
  · funext key
    simp only [lookup_insert, Function.update_apply, eq_comm]
  · funext id
    simp only [lookup_insert, Function.update_apply, eq_comm (a := id)]
    split <;> rfl
  · funext id
    simp only [lookup_insert, Function.update_apply, eq_comm]

/-- A launch enters its execution as the next attempt of the instance. -/
theorem Launched.ledger {supply : Supply} {instanceId : JobInstanceId}
    {definition : DefinitionIdentity} {upgraded : Bool} {execution : JobExecution}
    (launched : Launched supply instanceId definition upgraded state execution state') :
    Step [.inr execution.id] state.ledger state'.ledger := by
  obtain ⟨listed, _, _, _, found, restarts, _, _, core⟩ := launched.tables
  have entered : state'.ledger = state.ledger.entered instanceId execution.id listed := by
    unfold MemoryState.ledger
    rw [core]
    unfold CoreTables.ledger Ledger.entered
    congr 1
    · funext id
      simp only [lookup_insert, Function.update_apply, eq_comm (a := id)]
      split
      · rename_i same
        subst same
        rw [launched.made]
        rfl
      · rfl
    · funext id
      simp only [lookup_insert, Function.update_apply, eq_comm]
      rfl
    · funext id
      simp only [lookup_insert, Function.update_apply, eq_comm (a := id)]
      split <;> rfl
  rw [entered]
  refine .entered found (record_ledger_none launched.unused) ?_
  intro last attempt ends records
  change (state.jobExecutions[last]?).map _ = some attempt at records
  obtain ⟨row, stored, rfl⟩ := Option.map_eq_some_iff.mp records
  rcases (restarts last row ends stored).1 with stopped | failed
  · simp [stopped, BatchStatus.isFinished]
  · simp [failed, BatchStatus.isFinished]

theorem JobMoves.ledger {id : JobExecutionId} {before after : JobExecution} (number : Nat)
    (moves : JobMoves operation id before after) :
    (⟨before.jobInstanceId, !before.status.isFinished, number⟩ : Attempt JobInstanceId).Moves
      ⟨after.jobInstanceId, !after.status.isFinished, number⟩ := by
  refine ⟨moves.owner, rfl, ?_⟩
  rcases moves with rfl | ⟨_, _, ⟨legal, _⟩ | ⟨_, ended⟩ | ⟨same, _⟩⟩
  · exact fun settled => settled
  · intro settled
    have finished : before.status.isFinished = true := by simpa using settled
    simp [isLegalInPlaceTransition_finished legal finished]
  · simp [ended]
  · rw [same]
    exact fun settled => settled

theorem RowsMoved.ledger (moved : RowsMoved operation state state') :
    Step [] state.ledger state'.ledger := by
  have rows : state'.ledger = state.ledger.moved state'.ledger.record := by
    unfold MemoryState.ledger
    rw [moved.core]
    rfl
  rw [rows]
  refine .moved fun id => ?_
  have attempts : state'.executionAttempts = state.executionAttempts :=
    congrArg CoreTables.executionAttempts moved.core
  change Option.Rel _ ((state.jobExecutions[id]?).map _) ((state'.jobExecutions[id]?).map _)
  have held := moved.jobs id
  revert held
  generalize state.jobExecutions[id]? = before
  generalize state'.jobExecutions[id]? = after
  intro held
  cases held with
  | none => exact .none
  | some moves =>
    refine .some ?_
    change Attempt.Moves _ ⟨_, _, state'.executionAttempts[id]?.getD 0⟩
    rw [attempts]
    exact moves.ledger _

end Moves

section Purges

/-- A candidate is dropped from the list of its instance. -/
private theorem ledger_purgeCandidate (state : MemoryState) (candidate : PurgeCandidate) :
    (purgeCandidate state candidate).ledger =
      state.ledger.dropped candidate.jobInstanceId candidate.jobExecutionId := by
  have purged : RowsPurged [candidate] state (purgeCandidate state candidate) :=
    rowsPurged [candidate] state
  unfold MemoryState.ledger CoreTables.ledger Ledger.dropped
  congr 1
  · funext key
    change (purgeCandidate state candidate).instancesByKey[key]? = state.instancesByKey[key]?
    rw [purged.keys]
  · funext id
    change ((purgeCandidate state candidate).instancesById[id]?).map _ = _
    rw [purged.instances]
    rfl
  · funext id
    change ((purgeCandidate state candidate).jobExecutions[id]?).map (fun row : JobExecution =>
      (⟨row.jobInstanceId, !row.status.isFinished,
        (purgeCandidate state candidate).executionAttempts[id]?.getD 0⟩ : Attempt _)) = _
    rw [purged.rows, purged.attempts, lookup_eraseAll, lookup_eraseAll, Function.update_apply]
    by_cases same : id = candidate.jobExecutionId
    · simp [same]
    · simp only [List.map_cons, List.map_nil, List.mem_singleton, same, if_false]
      rfl
  · funext id
    change (purgeCandidate state candidate).jobExecutionsByInstance[id]? = _
    rw [purged.lists, Function.update_apply]
    by_cases same : id = candidate.jobInstanceId
    · subst same
      simp only [List.mem_singleton, forall_eq, forall_const, if_pos, ne_comm]
      rfl
    · have unchanged : ∀ listed : List JobExecutionId, listed.filter (fun execution =>
          decide (∀ other ∈ [candidate], other.jobInstanceId = id →
            other.jobExecutionId ≠ execution)) = listed := fun listed =>
        List.filter_eq_self.mpr fun execution _ => by simp [Ne.symm same]
      rw [if_neg same]
      cases lists : state.jobExecutionsByInstance[id]? with
      | none => exact lists.symm
      | some listed =>
        rw [Option.map_some, unchanged]
        exact lists.symm
  · funext id
    change (purgeCandidate state candidate).nextExecutionAttemptByInstance[id]?.getD 0 = _
    rw [purged.counters]
    rfl

private theorem ledger_purgeCandidates (candidates : List PurgeCandidate) (state : MemoryState) :
    (candidates.foldl purgeCandidate state).ledger =
      (candidates.map fun candidate => (candidate.jobInstanceId, candidate.jobExecutionId)).foldl
        (fun ledger drop => ledger.dropped drop.1 drop.2) state.ledger := by
  induction candidates generalizing state with
  | nil => rfl
  | cons candidate candidates ih =>
    rw [List.foldl_cons, ih, ledger_purgeCandidate]
    rfl

/-- An instance is closed once nothing is listed for it. -/
private theorem ledger_purgeInstance (state : MemoryState) (id : JobInstanceId) :
    Run [] state.ledger (purgeInstance state id).ledger := by
  unfold purgeInstance
  by_cases empty : state.jobExecutionsByInstance[id]? = some []
  · rw [if_pos empty]
    cases found : state.instancesById[id]? with
    | none => exact .refl _
    | some row =>
      have keyed : state.ledger.key id = some row.key := by
        change (state.instancesById[id]?).map _ = _
        rw [found]
        rfl
      have run : Run [] state.ledger (state.ledger.closed row.key id) :=
        .single (.closed empty keyed)
      refine cast (congrArg (Run [] state.ledger) ?_) run
      unfold MemoryState.ledger CoreTables.ledger Ledger.closed
      congr 1
      · funext key
        simp only [MemoryState.core, lookup_erase, Function.update_apply, eq_comm]
      · funext other
        simp only [MemoryState.core, lookup_erase, Function.update_apply, eq_comm (a := other)]
        split <;> rfl
      · funext other
        simp only [MemoryState.core, lookup_erase, Function.update_apply, eq_comm (a := other)]
      · funext other
        simp only [MemoryState.core, lookup_erase, Function.update_apply, eq_comm (a := other)]
        split <;> rfl
  · rw [if_neg empty]
    exact .refl _

private theorem ledger_purgeInstances (ids : List JobInstanceId) (state : MemoryState) :
    Run [] state.ledger (ids.foldl purgeInstance state).ledger := by
  induction ids generalizing state with
  | nil => exact .refl _
  | cons id ids ih => exact (ledger_purgeInstance state id).trans (ih _)

/-- What a candidate passes: its execution is finished, and so are all of its instance. -/
private theorem checkCandidate_settled {request : PurgePlanRequest} {candidate : PurgeCandidate}
    (checked : checkCandidate state request candidate = .ok ()) :
    (∀ attempt, state.ledger.record candidate.jobExecutionId = some attempt →
      attempt.live = false) ∧ state.ledger.Resolved candidate.jobInstanceId := by
  simp only [checkCandidate, bind_ok, require_ok, ensure_ok, Bool.and_eq_true,
    decide_eq_true_eq] at checked
  obtain ⟨row, stored, _, ⟨⟨_, terminal⟩, _⟩, resolved⟩ := checked
  constructor
  · intro attempt records
    rw [record_ledger stored] at records
    obtain rfl := Option.some.inj records
    have finished := request.statuses.finished row.status
      (by simpa [TerminalStatusSet.contains] using terminal)
    simp [finished]
  · intro listed lists id member attempt records
    change state.jobExecutionsByInstance[candidate.jobInstanceId]? = some listed at lists
    change (state.jobExecutions[id]?).map _ = some attempt at records
    obtain ⟨other, found, rfl⟩ := Option.map_eq_some_iff.mp records
    have settled : other.status.isFinished = true := by
      refine List.all_eq_true.mp resolved other ?_
      unfold MemoryState.executionsOf
      rw [lists]
      exact List.mem_filterMap.mpr ⟨id, member, found⟩
    simp [settled]

private theorem ledger_purged {request : PurgePlanRequest} {candidates : List PurgeCandidate}
    (checked : ∀ candidate ∈ candidates, checkCandidate state request candidate = .ok ()) :
    Run [] state.ledger (purged state candidates).ledger := by
  have drops : Run [] state.ledger (candidates.foldl purgeCandidate state).ledger := by
    rw [ledger_purgeCandidates]
    refine .drops ?_ ?_
    · intro drop member
      obtain ⟨candidate, among, rfl⟩ := List.mem_map.mp member
      exact (checkCandidate_settled (checked candidate among)).1
    · intro drop member
      obtain ⟨candidate, among, rfl⟩ := List.mem_map.mp member
      exact (checkCandidate_settled (checked candidate among)).2
  exact drops.trans (ledger_purgeInstances _ _)

end Purges

section Operations

/-- The identifiers of instances and executions that a generator hands out. -/
def Supply.ids (supply : Supply) : List (JobInstanceId ⊕ JobExecutionId) :=
  supply.jobInstanceId.toList.map .inl ++ supply.jobExecutionId.toList.map .inr

/-- The ledger runs on, and what it draws the generator has handed out. -/
def Draws (ids : List (JobInstanceId ⊕ JobExecutionId)) (state state' : MemoryState) : Prop :=
  ∃ drawn, drawn.Sublist ids ∧ Run drawn state.ledger state'.ledger

variable {ids later : List (JobInstanceId ⊕ JobExecutionId)} {supply : Supply}

theorem Draws.still (same : state'.ledger = state.ledger) : Draws ids state state' :=
  ⟨[], List.nil_sublist _, same ▸ .refl _⟩

theorem Draws.quiet (same : SameCore state state') : Draws ids state state' :=
  .still (congrArg CoreTables.ledger same)

theorem Draws.moved (moved : RowsMoved operation state state') : Draws ids state state' :=
  ⟨[], List.nil_sublist _, .single moved.ledger⟩

theorem Draws.trans {middle : MemoryState} (first : Draws ids state middle)
    (rest : Draws later middle state') : Draws (ids ++ later) state state' := by
  obtain ⟨drawn, sub, run⟩ := first
  obtain ⟨drawn', sub', run'⟩ := rest
  exact ⟨drawn ++ drawn', sub.append sub', run.trans run'⟩

theorem Draws.followed {middle : MemoryState} (draws : Draws ids state middle)
    (same : state'.ledger = middle.ledger) : Draws ids state state' := by
  obtain ⟨drawn, sub, run⟩ := draws
  exact ⟨drawn, sub, same ▸ run⟩

theorem Draws.weaken (draws : Draws ids state state') (sub : ids.Sublist later) :
    Draws later state state' := by
  obtain ⟨drawn, among, run⟩ := draws
  exact ⟨drawn, among.trans sub, run⟩

theorem Draws.launched {instanceId : JobInstanceId} {definition : DefinitionIdentity}
    {upgraded : Bool} {execution : JobExecution}
    (made : Launched supply instanceId definition upgraded state execution state') :
    Draws (supply.jobExecutionId.toList.map .inr) state state' := by
  refine ⟨_, ?_, .single made.ledger⟩
  rw [made.drawn]
  exact List.Sublist.refl _

private theorem selectOrCreateJobInstance_draws {key : JobInstanceKey} {answer : JobInstance}
    (done : selectOrCreateJobInstance supply key state = .ok (answer, state')) :
    Draws (supply.jobInstanceId.toList.map .inl) state state' := by
  rcases selectOrCreateJobInstance_effect done with ⟨rfl, _⟩ | ⟨named, free, unused, core⟩
  · exact .still rfl
  · have drawn : supply.jobInstanceId = some answer.id := by
      simp only [selectOrCreateJobInstance, bind_yields, get_yields, existsAndEq, and_true,
        true_and, free, lift_yields, require_ok] at done
      obtain ⟨id, drawn, done⟩ := done
      split at done
      · simp at done
      · simp only [bind_yields, modify_yields, pure_yields, existsAndEq, true_and] at done
        obtain ⟨_, rfl, _⟩ := done
        exact drawn
    subst named
    have keyed : state.ledger.key answer.id = none := by
      change (state.instancesById[answer.id]?).map _ = none
      rw [not_mem_iff_lookup.mp unused, Option.map_none]
    refine ⟨[.inl answer.id], ?_, .single (cast (congrArg (Step _ _) ?_) (.opened free keyed))⟩
    · rw [drawn]
      exact List.Sublist.refl _
    · unfold MemoryState.ledger
      rw [core]
      exact (ledger_entered answer).symm

private theorem storeNestedJobParameters_still {child : JobExecutionId} {parameters : JobParameters}
    {answer : Unit}
    (done : storeNestedJobParameters child parameters state = .ok (answer, state')) :
    state'.ledger = state.ledger := by
  obtain ⟨_, rfl | ⟨_, rfl⟩⟩ := storeNestedJobParameters_effect done <;> rfl

private theorem insertNestedJobLink_still (link : NestedJobLink) (state : MemoryState) :
    (insertNestedJobLink link state).ledger = state.ledger := rfl

private theorem createNestedJobLink_draws (reader : DefinitionReader)
    {request : NestedJobLinkRequest}
    {answer : NestedJobLink} (keyed : Keyed state)
    (done : createNestedJobLink supply request state = .ok (answer, state')) :
    Draws supply.ids state state' := by
  simp only [createNestedJobLink, bind_yields, get_yields, lift_yields, ensure_ok, existsAndEq,
    and_true, true_and] at done
  obtain ⟨_, _, _, _, matched, _, done⟩ := done
  cases matched with
  | some existing =>
    obtain ⟨_, rfl⟩ := pure_yields.mp done
    exact .still rfl
  | none =>
    simp only [bind_yields, lift_yields, require_ok, get_yields, existsAndEq, and_true,
      true_and] at done
    obtain ⟨_, _, _, first, selected, latest, current, done⟩ := done
    refine (selectOrCreateJobInstance_draws selected).trans ?_
    have linked : ∀ {child : JobExecutionId} {link : NestedJobLink} {parameters : JobParameters}
        {second : MemoryState}, (do
          storeNestedJobParameters child parameters
          modify (insertNestedJobLink link)
          pure link : StagedM NestedJobLink) second = .ok (answer, state') →
        state'.ledger = second.ledger := by
      intro child link parameters second done
      simp only [bind_yields, modify_yields, pure_yields, existsAndEq, true_and] at done
      obtain ⟨_, _, stored, _, _, rfl⟩ := done
      exact (insertNestedJobLink_still _ _).trans (storeNestedJobParameters_still stored)
    cases latest with
    | none =>
      obtain ⟨child, second, launched, done⟩ := bind_yields.mp done
      exact (Draws.launched (createJobExecution_effect launched)).followed (linked done)
    | some latest =>
      dsimp only at done
      obtain ⟨child, second, reused, linking⟩ := bind_yields.mp done
      have entered := (selectOrCreateJobInstance_changes reader (.createNestedJobLink request) keyed
        selected).1
      rcases reuseChildExecution_effect (entered.keyed keyed) current reused with ⟨rfl, _⟩ | made
      · exact .still (linked linking)
      · exact (Draws.launched made).followed (linked linking)

private theorem continueNestedJobLink_draws {parent priorParent : JobExecutionId} {nodeId : NodeId}
    {linkedAt : SystemTime} {answer : NestedJobLink}
    (done : continueNestedJobLink supply parent nodeId priorParent linkedAt state =
      .ok (answer, state')) : Draws supply.ids state state' := by
  simp only [continueNestedJobLink, bind_yields, get_yields, lift_yields, existsAndEq, and_true,
    true_and] at done
  obtain ⟨parentInstance, owner, done⟩ := done
  cases free : state.nestedJobLinks[(parent, nodeId)]? with
  | some existing =>
    simp only [free] at done
    obtain ⟨_, rfl⟩ := pure_yields.mp done
    exact .still rfl
  | none =>
    simp only [free, bind_yields, lift_yields, require_ok, ensure_ok, existsAndEq, and_true,
      true_and, modify_yields, pure_yields] at done
    obtain ⟨_, _, _, _, _, _, _, _, _, first, continued, _, _, kept, _, _, rfl⟩ := done
    have linked (link : NestedJobLink) :=
      (insertNestedJobLink_still link _).trans (storeNestedJobParameters_still kept)
    rcases continueChildExecution_effect continued with ⟨rfl, _⟩ | made
    · exact .still (linked _)
    · exact ((Draws.launched made).followed (linked _)).weaken (List.sublist_append_right _ _)

/-- An operation draws what its generator hands out. -/
theorem Operation.perform_draws {createdPlans : ExtTreeSet StepExecutionId} {operation : Operation}
    {answer : Unit} (keyed : Keyed state)
    (done : operation.perform reader supply createdPlans state = .ok (answer, state')) :
    Draws supply.ids state state' := by
  have moved : RowsMoved operation state state' → Draws supply.ids state state' := .moved
  cases operation with
  | registerDefinition registration =>
    obtain ⟨_, done⟩ := discard_yields.mp done
    exact .quiet (registerDefinition_quiet _ _ _ done)
  | registerDefinitionUpgrade jobName upgrade =>
    exact .quiet (registerDefinitionUpgrade_quiet _ _ _ done)
  | selectOrCreateJobInstance key =>
    obtain ⟨_, done⟩ := discard_yields.mp done
    exact (selectOrCreateJobInstance_draws done).weaken (List.sublist_append_left _ _)
  | createJobExecution instanceId definition parameters =>
    obtain ⟨_, done⟩ := discard_yields.mp done
    exact (Draws.launched (createJobExecutionWithDefinition_effect done)).weaken
      (List.sublist_append_right _ _)
  | createJobExecutionWithUpgrade instanceId upgrade parameters =>
    obtain ⟨_, done⟩ := discard_yields.mp done
    exact (Draws.launched (createJobExecutionWithUpgrade_effect done)).weaken
      (List.sublist_append_right _ _)
  | storeScopeResolutionProvenance entries =>
    exact .quiet (storeScopeResolutionProvenance_quiet _ _ _ done)
  | createFlowStepExecution jobExecutionId stepName nodeId startLimit =>
    obtain ⟨_, done⟩ := discard_yields.mp done
    obtain ⟨_, _, _, _, _, core⟩ := (createFlowStepExecution_effect done).tables
    exact .still ((congrArg CoreTables.ledger core).trans rfl)
  | transitionJobExecution id expected transition =>
    obtain ⟨_, done⟩ := discard_yields.mp done
    exact moved (transitionJobExecution_moves done)
  | enrichJobExitStatus id expected exitStatus =>
    obtain ⟨_, done⟩ := discard_yields.mp done
    exact moved (enrichJobExitStatus_moves done)
  | transitionStepExecution id expected transition =>
    obtain ⟨_, done⟩ := discard_yields.mp done
    exact moved (transitionStepExecution_moves done)
  | enrichStepExitStatus id expected exitStatus =>
    obtain ⟨_, done⟩ := discard_yields.mp done
    exact moved (enrichStepExitStatus_moves done)
  | commitStepExecutionContext id expected context =>
    obtain ⟨_, done⟩ := discard_yields.mp done
    exact moved (commitStepExecutionContext_moves done)
  | appendFlowDecision request =>
    obtain ⟨_, done⟩ := discard_yields.mp done
    obtain ⟨_, rfl⟩ := appendFlowDecision_effect done
    exact .still rfl
  | commitRepeatIteration request =>
    obtain ⟨_, done⟩ := discard_yields.mp done
    rcases commitRepeatIteration_effect done with ⟨rfl, _⟩ | ⟨rfl, _⟩
    · exact .still rfl
    · exact .still ((congrArg CoreTables.ledger (repeatRecorded_core done)).trans rfl)
  | createNestedJobLink request =>
    obtain ⟨_, done⟩ := discard_yields.mp done
    exact createNestedJobLink_draws reader keyed done
  | continueNestedJobLink parent nodeId priorParent linkedAt =>
    obtain ⟨_, done⟩ := discard_yields.mp done
    exact continueNestedJobLink_draws done
  | observeNestedJobTerminal parent nodeId observedAt =>
    obtain ⟨_, done⟩ := discard_yields.mp done
    rcases observeNestedJobTerminal_effect done with rfl | ⟨_, _, _, _, _, rfl⟩
    · exact .still rfl
    · exact .still rfl
  | stageForkJobContext target context => exact .quiet (stageForkJobContext_quiet _ _ _ done)
  | appendForkLineage lineage => exact .quiet (appendForkLineage_quiet _ _ _ done)
  | createStepPartitionPlan stepExecutionId entries =>
    obtain ⟨_, done⟩ := discard_yields.mp done
    exact moved (createStepPartitionPlan_keeps _ _ _ done).rows
  | restartStepPartitionPlan source target =>
    obtain ⟨_, done⟩ := discard_yields.mp done
    exact moved (restartStepPartitionPlan_keeps _ _ _ done).rows
  | assignStepPartition id expected worker =>
    obtain ⟨_, done⟩ := discard_yields.mp done
    exact moved (assignStepPartition_keeps _ _ _ done).rows
  | completeStepPartition id expected worker =>
    obtain ⟨_, done⟩ := discard_yields.mp done
    exact moved (completeStepPartition_keeps _ _ _ done).rows
  | aggregateStepPartitions stepExecutionId expected transitionedAt =>
    obtain ⟨_, done⟩ := discard_yields.mp done
    exact moved (aggregateStepPartitions_moves done)
  | recoverJobExecution id request =>
    obtain ⟨_, done⟩ := discard_yields.mp done
    exact moved (recoverJobExecution_moves keyed done)
  | appendOperatorRequest draft =>
    obtain ⟨_, done⟩ := discard_yields.mp done
    exact .quiet (appendOperatorRequest_quiet _ _ _ done)
  | requestExecutionStop id expected requestedAt =>
    obtain ⟨_, done⟩ := discard_yields.mp done
    exact .quiet (requestExecutionStop_quiet _ _ _ done)
  | claimExecutionOwner id expected owner claimedAt =>
    obtain ⟨_, done⟩ := discard_yields.mp done
    exact .quiet (claimExecutionOwner_quiet _ _ _ done)
  | observeExecutionControl id owner observedAt =>
    obtain ⟨_, done⟩ := discard_yields.mp done
    exact moved (observeExecutionControl_moves done)
  | placeInstanceHold id actor reason placedAt =>
    obtain ⟨_, done⟩ := discard_yields.mp done
    exact .quiet (placeInstanceHold_quiet _ _ _ done)
  | releaseInstanceHold id =>
    obtain ⟨_, done⟩ := discard_yields.mp done
    exact .quiet (releaseInstanceHold_quiet _ _ _ done)
  | appendRetentionAction draft =>
    obtain ⟨_, done⟩ := discard_yields.mp done
    exact .quiet (appendRetentionAction_quiet _ _ _ done)
  | applyPurge plan =>
    obtain ⟨_, done⟩ := discard_yields.mp done
    obtain ⟨rfl, checked⟩ := applyPurge_effect done
    exact ⟨[], List.nil_sublist _, ledger_purged checked⟩

end Operations

end OxideBatch.Repository
