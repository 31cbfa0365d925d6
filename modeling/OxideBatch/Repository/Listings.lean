import OxideBatch.Repository.Journal
import OxideBatch.Repository.Instances

/-! Steps, decisions, and partitions are listed once under their owners, in every state
that operations lead to; and what a purge takes of them. -/

namespace OxideBatch.Repository

open OxideBatch.Core OxideBatch.Plan Program
open Std (ExtTreeMap ExtTreeSet)
open Tables

variable {reader : DefinitionReader} {operation : Operation} {state state' : MemoryState}

section Plans

/-- Partitions by identifier, and their identifiers by step. -/
abbrev PlanTables := ExtTreeMap StepPartitionId StepPartition ×
  ExtTreeMap StepExecutionId (List StepPartitionId)

def MemoryState.plans (state : MemoryState) : PlanTables :=
  (state.stepPartitions, state.stepPartitionsByStep)

/-- Partitions are listed once, under their steps. -/
def Planned (plans : PlanTables) : Prop := Listed StepPartition.stepExecutionId plans.1 plans.2

/-- The plans of some steps are dropped. -/
def dropPlans (plans : PlanTables) (steps : List StepExecutionId) : PlanTables :=
  steps.foldl (fun plans step =>
    (eraseAll plans.1 (plans.2[step]?.getD []), plans.2.erase step)) plans

theorem Planned.drop {plans : PlanTables} (planned : Planned plans)
    (steps : List StepExecutionId) : Planned (dropPlans plans steps) := by
  induction steps generalizing plans with
  | nil => exact planned
  | cons step steps ih => exact ih (Listed.eraseOwner planned step)

/-- A partition is stored under an identifier that was not in use. -/
structure StoresOne (owner : StepExecutionId) (state : MemoryState) (partition : StepPartition)
    (state' : MemoryState) : Prop where
  unused : partition.id ∉ state.stepPartitions
  owned : partition.stepExecutionId = owner
  stored : state' =
    { state with stepPartitions := state.stepPartitions.insert partition.id partition }

private theorem storePartition_stores {owner : StepExecutionId}
    {build : StepPartitionId → StepPartition}
    {partition : StepPartition} (named : ∀ id, (build id).id = id)
    (owned : ∀ id, (build id).stepExecutionId = owner)
    (done : storePartition build state = .ok (partition, state')) :
    StoresOne owner state partition state' := by
  simp only [storePartition, bind_yields, get_yields, lift_yields, modify_yields, pure_yields,
    existsAndEq, and_true, true_and] at done
  obtain ⟨id, next, _, rfl, rfl⟩ := done
  refine ⟨?_, owned id, by rw [named]⟩
  rw [named]
  exact nextId_unused next

/-- What a list of stored partitions is. -/
structure StoresAll (owner : StepExecutionId) (state : MemoryState)
    (partitions : List StepPartition) (state' : MemoryState) : Prop where
  distinct : (partitions.map (·.id)).Nodup
  unused : ∀ partition ∈ partitions, partition.id ∉ state.stepPartitions
  owned : ∀ partition ∈ partitions, partition.stepExecutionId = owner
  stored : state' = { state with
    stepPartitions := insertAll state.stepPartitions
      (partitions.map fun partition => (partition.id, partition)) }

private theorem mapM_stores {α : Type} {owner : StepExecutionId} {body : α → StagedM StepPartition}
    (one : ∀ value state partition state', body value state = .ok (partition, state') →
      StoresOne owner state partition state') {values : List α} {partitions : List StepPartition}
    (done : values.mapM body state = .ok (partitions, state')) :
    StoresAll owner state partitions state' := by
  induction values generalizing state partitions with
  | nil =>
    obtain ⟨rfl, rfl⟩ := pure_yields.mp done
    exact ⟨by simp, by simp, by simp, rfl⟩
  | cons value values ih =>
    rw [List.mapM_cons] at done
    simp only [bind_yields, pure_yields] at done
    obtain ⟨first, middle, here, others, _, rest, rfl, rfl⟩ := done
    obtain ⟨unused, owned, rfl⟩ := one _ _ _ _ here
    obtain ⟨distinct, unused', owned', rfl⟩ := ih rest
    refine ⟨?_, ?_, by simpa using ⟨owned, owned'⟩, rfl⟩
    · refine List.nodup_cons.mpr ⟨fun member => ?_, distinct⟩
      obtain ⟨other, present, same⟩ := List.mem_map.mp member
      exact unused' other present (mem_insert_iff.mpr (.inl same.symm))
    · intro partition member
      rcases List.mem_cons.mp member with rfl | later
      · exact unused
      · exact fun used => unused' partition later (mem_insert_iff.mpr (.inr used))

/-- The partitions of a new plan are listed under its step. -/
private theorem listPlan_planned {owner : StepExecutionId} {partitions : List StepPartition}
    {middle : MemoryState} {answer : Unit} (planned : Planned state.plans)
    (unplanned : owner ∉ state.stepPartitionsByStep)
    (stores : StoresAll owner state partitions middle)
    (done : listPlan owner partitions middle = .ok (answer, state')) : Planned state'.plans := by
  rw [listPlan, modify_yields] at done
  obtain ⟨distinct, unused, owned, rfl⟩ := stores
  rw [← done]
  have keys : (partitions.map fun partition => (partition.id, partition)).map (·.1) =
      partitions.map (·.id) := by
    rw [List.map_map]
    rfl
  have listed : Listed StepPartition.stepExecutionId
      (insertAll state.stepPartitions (partitions.map fun partition => (partition.id, partition)))
      (state.stepPartitionsByStep.insert owner _) :=
    Listed.insertList planned unplanned (keys ▸ distinct)
      (by simpa [MemoryState.plans] using unused) (by simpa using owned)
  rw [keys] at listed
  exact listed

private theorem createStepPartitionPlan_planned {stepExecutionId : StepExecutionId}
    {entries : List PartitionPlanEntry} {answer : List StepPartition}
    (planned : Planned state.plans)
    (done : createStepPartitionPlan stepExecutionId entries state = .ok (answer, state')) :
    Planned state'.plans := by
  simp only [createStepPartitionPlan, bind_yields, get_yields, lift_yields, require_ok, ensure_ok,
    pure_yields, existsAndEq, and_true, true_and] at done
  obtain ⟨_, _, _, _, _, _, _, _, _, unplanned, _, _, middle, _, stored, listed⟩ := done
  refine listPlan_planned planned (not_contains.mp unplanned) (mapM_stores ?_ stored) listed
  intro entry state partition state' done
  exact storePartition_stores (fun _ => rfl) (fun _ => rfl) done

private theorem restartPartition_stores {target : StepExecutionId}
    {source partition : StepPartition}
    (done : restartPartition target source state = .ok (partition, state')) :
    StoresOne target state partition state' := by
  unfold restartPartition at done
  split at done
  · simp only [bind_yields, lift_yields, ensure_ok, existsAndEq, and_true] at done
    obtain ⟨_, _, done⟩ := done
    exact storePartition_stores (fun _ => rfl) (fun _ => rfl) done
  · simp only [bind_yields, lift_yields, ensure_ok, existsAndEq, and_true] at done
    obtain ⟨_, _, done⟩ := done
    exact storePartition_stores (fun _ => rfl) (fun _ => rfl) done

private theorem restartStepPartitionPlan_planned {source target : StepExecutionId}
    {answer : List StepPartition} (planned : Planned state.plans)
    (done : restartStepPartitionPlan source target state = .ok (answer, state')) :
    Planned state'.plans := by
  simp only [restartStepPartitionPlan, bind_yields, get_yields, lift_yields, require_ok, ensure_ok,
    pure_yields, existsAndEq, and_true, true_and] at done
  obtain ⟨_, unplanned, _, _, _, _, _, _, _, _, _, _, _, _, middle, _, stored, listed⟩ := done
  refine listPlan_planned planned (not_contains.mp unplanned) (mapM_stores ?_ stored) listed
  intro sourceId state partition state' done
  simp only [bind_yields, get_yields, lift_yields, require_ok, existsAndEq, and_true,
    true_and] at done
  obtain ⟨_, _, done⟩ := done
  exact restartPartition_stores done

private theorem assignStepPartition_planned {createdPlans : ExtTreeSet StepExecutionId}
    {id : StepPartitionId} {expected : ExecutionVersion} {worker : StepExecutionId}
    {answer : StepPartition} (planned : Planned state.plans)
    (done : assignStepPartition createdPlans id expected worker state = .ok (answer, state')) :
    Planned state'.plans := by
  simp only [assignStepPartition, bind_yields, get_yields, lift_yields, require_ok, ensure_ok,
    mapError_ok, modify_yields, pure_yields, existsAndEq, and_true, true_and] at done
  obtain ⟨before, stored, _, _, _, _, _, _, _, _, _, _, assigned, _, _, _, rfl⟩ := done
  refine Listed.update planned stored ?_
  simp only [StepPartition.assign, bind_ok] at assigned
  obtain ⟨_, _, assigned⟩ := assigned
  split at assigned
  · cases assigned
  · simp only [bind_ok, pure_ok] at assigned
    obtain ⟨_, _, rfl⟩ := assigned
    rfl

private theorem completeStepPartition_planned {id : StepPartitionId} {expected : ExecutionVersion}
    {worker : StepExecutionId} {answer : StepPartition} (planned : Planned state.plans)
    (done : completeStepPartition id expected worker state = .ok (answer, state')) :
    Planned state'.plans := by
  simp only [completeStepPartition, bind_yields, get_yields, lift_yields, require_ok, ensure_ok,
    mapError_ok, modify_yields, pure_yields, existsAndEq, and_true, true_and] at done
  obtain ⟨before, stored, _, _, _, _, _, _, _, _, _, _, _, _, _, completed, rfl⟩ := done
  refine Listed.update planned stored ?_
  simp only [StepPartition.complete, bind_ok] at completed
  obtain ⟨_, _, completed⟩ := completed
  split at completed
  · cases completed
  · simp only [bind_ok, pure_ok] at completed
    obtain ⟨_, _, rfl⟩ := completed
    rfl

end Plans

section Filed

/-- Steps and decisions are listed once, under their executions. -/
structure Filed (tables : CoreTables) : Prop where
  steps : Listed StepExecution.jobExecutionId tables.stepExecutions tables.stepExecutionsByJob
  decisions : Listed (fun decision : FlowDecision => decision.jobExecutionId)
    tables.flowDecisions tables.flowDecisionsByJob

private theorem filed_empty : Filed MemoryState.empty.core := ⟨Listed.empty, Listed.empty⟩

theorem Filed.of_tables {tables tables' : CoreTables} (filed : Filed tables)
    (steps : tables'.stepExecutions = tables.stepExecutions)
    (stepLists : tables'.stepExecutionsByJob = tables.stepExecutionsByJob)
    (decisions : tables'.flowDecisions = tables.flowDecisions)
    (decisionLists : tables'.flowDecisionsByJob = tables.flowDecisionsByJob) : Filed tables' := by
  refine ⟨?_, ?_⟩
  · rw [steps, stepLists]
    exact filed.steps
  · rw [decisions, decisionLists]
    exact filed.decisions

theorem RowsMoved.filed (moved : RowsMoved operation state state') (filed : Filed state.core) :
    Filed state'.core := by
  rw [moved.core]
  exact ⟨listed_rowsMoved filed.steps fun id => rel_imp (fun _ _ moves => moves.2) (moved.steps id),
    filed.decisions⟩

end Filed

section Purge

/-- The rows of some steps, with all that hangs on them, are removed. -/
structure StepsRemoved (steps : List StepExecutionId) (state state' : MemoryState) : Prop where
  rows : state'.stepExecutions = eraseAll state.stepExecutions steps
  plans : state'.plans = dropPlans state.plans steps
  others : state' = { state with
    stepPartitions := state'.stepPartitions
    stepPartitionsByStep := state'.stepPartitionsByStep
    repeatExecutions := state'.repeatExecutions
    stepExecutions := state'.stepExecutions
    stepLogicalIds := state'.stepLogicalIds
    stepContexts := state'.stepContexts }

private theorem stepsRemoved (steps : List StepExecutionId) (state : MemoryState) :
    StepsRemoved steps state (steps.foldl removeStepExecution state) := by
  induction steps generalizing state with
  | nil => exact ⟨rfl, rfl, rfl⟩
  | cons step steps ih =>
    obtain ⟨rows, plans, others⟩ := ih (removeStepExecution state step)
    exact ⟨rows, plans, others⟩

/-- What a candidate of a purge takes along. -/
structure CandidatePurged (candidate : PurgeCandidate) (state state' : MemoryState) : Prop where
  decisions : state'.flowDecisions = eraseAll state.flowDecisions
    (state.flowDecisionsByJob[candidate.jobExecutionId]?.getD [])
  decisionLists : state'.flowDecisionsByJob =
    state.flowDecisionsByJob.erase candidate.jobExecutionId
  recoveries : state'.recoveryDecisions = state.recoveryDecisions.erase candidate.jobExecutionId
  requests : state'.operatorRequests = eraseAll state.operatorRequests
    ((state.operatorRequests.toList.filter fun entry =>
      entry.2.jobExecutionId = some candidate.jobExecutionId).map (·.1))
  steps : state'.stepExecutions = eraseAll state.stepExecutions
    (state.stepExecutionsByJob[candidate.jobExecutionId]?.getD [])
  stepLists : state'.stepExecutionsByJob =
    state.stepExecutionsByJob.erase candidate.jobExecutionId
  plans : state'.plans = dropPlans state.plans
    (state.stepExecutionsByJob[candidate.jobExecutionId]?.getD [])
  rows : state'.jobExecutions = state.jobExecutions.erase candidate.jobExecutionId
  definitions : state'.definitions = state.definitions

theorem candidatePurged (candidate : PurgeCandidate) (state : MemoryState) :
    CandidatePurged candidate state (purgeCandidate state candidate) := by
  have removed := stepsRemoved (state.stepExecutionsByJob[candidate.jobExecutionId]?.getD [])
    { removeOperatorRequests
        { removeFlowDecisions state candidate.jobExecutionId with
          recoveryDecisions := state.recoveryDecisions.erase candidate.jobExecutionId }
        candidate.jobExecutionId with
      stepExecutionsByJob := state.stepExecutionsByJob.erase candidate.jobExecutionId }
  have others {Table : Type} (table : MemoryState → Table) := congrArg table removed.others
  exact ⟨others (·.flowDecisions), others (·.flowDecisionsByJob), others (·.recoveryDecisions),
    others (·.operatorRequests), removed.rows, others (·.stepExecutionsByJob), removed.plans,
    congrArg (·.erase candidate.jobExecutionId) (others (·.jobExecutions)),
    others (·.definitions)⟩

theorem CandidatePurged.filed {candidate : PurgeCandidate}
    (purged : CandidatePurged candidate state state') (filed : Filed state.core) :
    Filed state'.core := by
  refine ⟨?_, ?_⟩
  · change Listed _ state'.stepExecutions state'.stepExecutionsByJob
    rw [purged.steps, purged.stepLists]
    exact filed.steps.eraseOwner _
  · change Listed _ state'.flowDecisions state'.flowDecisionsByJob
    rw [purged.decisions, purged.decisionLists]
    exact filed.decisions.eraseOwner _

/-- The removal of instances reaches none of these tables. -/
theorem purgeInstances_kept (ids : List JobInstanceId) (state : MemoryState) :
    ids.foldl purgeInstance state = { state with
      instancesById := (ids.foldl purgeInstance state).instancesById
      instancesByKey := (ids.foldl purgeInstance state).instancesByKey
      jobExecutionsByInstance := (ids.foldl purgeInstance state).jobExecutionsByInstance
      nextExecutionAttemptByInstance :=
        (ids.foldl purgeInstance state).nextExecutionAttemptByInstance
      instanceCreatedAt := (ids.foldl purgeInstance state).instanceCreatedAt
      holds := (ids.foldl purgeInstance state).holds } := by
  induction ids generalizing state with
  | nil => rfl
  | cons id ids ih =>
    have one : ∃ instances keys lists counters createdAt holds, purgeInstance state id =
        { state with
          instancesById := instances
          instancesByKey := keys
          jobExecutionsByInstance := lists
          nextExecutionAttemptByInstance := counters
          instanceCreatedAt := createdAt
          holds := holds } := by
      unfold purgeInstance
      split
      · split <;> exact ⟨_, _, _, _, _, _, rfl⟩
      · exact ⟨_, _, _, _, _, _, rfl⟩
    obtain ⟨_, _, _, _, _, _, same⟩ := one
    rw [List.foldl_cons, ih, same]

private theorem filed_purged (filed : Filed state.core) (candidates : List PurgeCandidate) :
    Filed (purged state candidates).core := by
  have rows : Filed (candidates.foldl purgeCandidate state).core := by
    induction candidates generalizing state with
    | nil => exact filed
    | cons candidate candidates ih => exact ih ((candidatePurged candidate state).filed filed)
  unfold purged
  rw [purgeInstances_kept]
  exact rows.of_tables rfl rfl rfl rfl

private theorem planned_purged (planned : Planned state.plans) (candidates : List PurgeCandidate) :
    Planned (purged state candidates).plans := by
  have rows : Planned (candidates.foldl purgeCandidate state).plans := by
    induction candidates generalizing state with
    | nil => exact planned
    | cons candidate candidates ih =>
      refine @ih (purgeCandidate state candidate) ?_
      rw [(candidatePurged candidate state).plans]
      exact planned.drop _
  unfold purged
  rw [purgeInstances_kept]
  exact rows

end Purge

section Operations

theorem Change.filed (change : Change reader operation state state')
    (filed : Filed state.core) : Filed state'.core := by
  cases change with
  | quiet same => exact same ▸ filed
  | entered added free unused core => exact core ▸ filed.of_tables rfl rfl rfl rfl
  | launched made upgrades =>
    obtain ⟨_, _, _, _, _, _, _, _, core⟩ := made.tables
    exact core ▸ filed.of_tables rfl rfl rfl rfl
  | moved rows => exact rows.filed filed
  | stepEntered made =>
    obtain ⟨_, _, _, _, _, core⟩ := made.tables
    rw [core, ← made.owner]
    exact ⟨filed.steps.push made.unused, filed.decisions⟩
  | decided decision unused core =>
    rw [core]
    exact ⟨filed.steps, Listed.push filed.decisions unused⟩
  | repeated same accepted => exact repeatRecorded_core accepted ▸ filed.of_tables rfl rfl rfl rfl
  | parametersStored unset core => exact core ▸ filed.of_tables rfl rfl rfl rfl
  | linkCreated free selected unobserved made => exact made ▸ filed.of_tables rfl rfl rfl rfl
  | linkContinued free continued made => exact made ▸ filed.of_tables rfl rfl rfl rfl
  | observed linked stored ended core => exact core ▸ filed.of_tables rfl rfl rfl rfl
  | purged same checked => exact filed_purged filed _

/-- A change of other tables than those of partitions. -/
def PlansKept (state state' : MemoryState) : Prop := state'.plans = state.plans

theorem PlansKept.of_core {tables : CoreTables} (core : state'.core = tables)
    (rows : tables.stepPartitions = state.stepPartitions)
    (lists : tables.stepPartitionsByStep = state.stepPartitionsByStep) :
    PlansKept state state' :=
  Prod.ext ((congrArg CoreTables.stepPartitions core).trans rows)
    ((congrArg CoreTables.stepPartitionsByStep core).trans lists)

theorem PlansKept.quiet (same : SameCore state state') : PlansKept state state' :=
  .of_core same rfl rfl

theorem PlansKept.trans {middle : MemoryState} (first : PlansKept state middle)
    (second : PlansKept middle state') : PlansKept state state' := Eq.trans second first

theorem Launched.plansKept {supply : Supply} {instanceId : JobInstanceId}
    {definition : DefinitionIdentity} {upgraded : Bool} {execution : JobExecution}
    (made : Launched supply instanceId definition upgraded state execution state') :
    PlansKept state state' := by
  obtain ⟨_, _, _, _, _, _, _, _, core⟩ := made.tables
  exact .of_core core rfl rfl

variable {supply : Supply}

private theorem selectOrCreateJobInstance_plansKept {key : JobInstanceKey} {answer : JobInstance}
    (done : selectOrCreateJobInstance supply key state = .ok (answer, state')) :
    PlansKept state state' := by
  rcases selectOrCreateJobInstance_effect done with ⟨rfl, _⟩ | ⟨_, _, _, core⟩
  · rfl
  · exact .of_core core rfl rfl

/-- A link and the parameters of its child leave the partitions alone. -/
private theorem insertNestedJobLink_plansKept (link : NestedJobLink) {child : JobExecutionId}
    {parameters : JobParameters} {answer : Unit}
    (stored : storeNestedJobParameters child parameters state = .ok (answer, state')) :
    PlansKept state (insertNestedJobLink link state') := by
  obtain ⟨_, rfl | ⟨_, rfl⟩⟩ := storeNestedJobParameters_effect stored <;> rfl

private theorem linkStored_plansKept {child : JobExecutionId} {link answer : NestedJobLink}
    {parameters : JobParameters}
    (done : (do
      storeNestedJobParameters child parameters
      modify (insertNestedJobLink link)
      pure link : StagedM NestedJobLink) state = .ok (answer, state')) :
    PlansKept state state' := by
  simp only [bind_yields, modify_yields, pure_yields, existsAndEq, true_and] at done
  obtain ⟨_, middle, stored, _, _, rfl⟩ := done
  exact insertNestedJobLink_plansKept link stored

private theorem createNestedJobLink_plansKept (reader : DefinitionReader)
    {request : NestedJobLinkRequest}
    {answer : NestedJobLink} (keyed : Keyed state)
    (done : createNestedJobLink supply request state = .ok (answer, state')) :
    PlansKept state state' := by
  simp only [createNestedJobLink, bind_yields, get_yields, lift_yields, ensure_ok, existsAndEq,
    and_true, true_and] at done
  obtain ⟨_, _, _, _, matched, _, done⟩ := done
  cases matched with
  | some existing =>
    obtain ⟨_, rfl⟩ := pure_yields.mp done
    rfl
  | none =>
    simp only [bind_yields, lift_yields, require_ok, get_yields, existsAndEq, and_true,
      true_and] at done
    obtain ⟨_, _, _, first, selected, latest, current, done⟩ := done
    refine (selectOrCreateJobInstance_plansKept selected).trans ?_
    cases latest with
    | none =>
      obtain ⟨child, second, launched, linked⟩ := bind_yields.mp done
      exact (createJobExecution_effect launched).plansKept.trans (linkStored_plansKept linked)
    | some latest =>
      dsimp only at done
      obtain ⟨child, second, reused, linked⟩ := bind_yields.mp done
      have entered := (selectOrCreateJobInstance_changes reader (.createNestedJobLink request) keyed
        selected).1
      rcases reuseChildExecution_effect (entered.keyed keyed) current reused with ⟨rfl, _⟩ | made
      · exact linkStored_plansKept linked
      · exact made.plansKept.trans (linkStored_plansKept linked)

private theorem continueNestedJobLink_plansKept {parent priorParent : JobExecutionId}
    {nodeId : NodeId}
    {linkedAt : SystemTime} {answer : NestedJobLink}
    (done : continueNestedJobLink supply parent nodeId priorParent linkedAt state =
      .ok (answer, state')) : PlansKept state state' := by
  simp only [continueNestedJobLink, bind_yields, get_yields, lift_yields, existsAndEq, and_true,
    true_and] at done
  obtain ⟨_, _, done⟩ := done
  cases free : state.nestedJobLinks[(parent, nodeId)]? with
  | some existing =>
    simp only [free] at done
    obtain ⟨_, rfl⟩ := pure_yields.mp done
    rfl
  | none =>
    simp only [free, bind_yields, lift_yields, require_ok, ensure_ok, existsAndEq, and_true,
      true_and, modify_yields, pure_yields] at done
    obtain ⟨_, _, _, _, _, _, _, _, _, first, continued, _, _, stored, _, _, rfl⟩ := done
    rcases continueChildExecution_effect continued with ⟨rfl, _⟩ | made
    · exact insertNestedJobLink_plansKept _ stored
    · exact made.plansKept.trans (insertNestedJobLink_plansKept _ stored)

private theorem aggregateStepPartitions_plansKept {stepExecutionId : StepExecutionId}
    {expected : ExecutionVersion} {transitionedAt : SystemTime} {answer : StepExecution × Bool}
    (done : aggregateStepPartitions stepExecutionId expected transitionedAt state =
      .ok (answer, state')) : PlansKept state state' := by
  simp only [aggregateStepPartitions, bind_yields, get_yields, lift_yields, mapError_ok,
    require_ok, existsAndEq, and_true, true_and] at done
  obtain ⟨_, _, _, _, _, middle, agreed, _, _, _, _, done⟩ := done
  obtain ⟨rfl, _⟩ := checks_ok agreed
  split at done
  · obtain ⟨_, rfl⟩ := pure_yields.mp done
    rfl
  · simp only [bind_yields, lift_yields, ensure_ok, modify_yields, pure_yields, existsAndEq,
      and_true, true_and] at done
    obtain ⟨_, _, _, _, _, _, rfl⟩ := done
    rfl

private theorem observeExecutionControl_plansKept {id : JobExecutionId} {owner : OwnerToken}
    {observedAt : SystemTime} {answer : ExecutionControl}
    (done : observeExecutionControl id owner observedAt state = .ok (answer, state')) :
    PlansKept state state' := by
  simp only [observeExecutionControl, bind_yields, get_yields, lift_yields, require_ok,
    existsAndEq, and_true, true_and] at done
  obtain ⟨_, _, done⟩ := done
  split at done
  · simp only [bind_yields, lift_yields, ofLifecycle_ok, modify_yields, pure_yields, existsAndEq,
      and_true] at done
    obtain ⟨_, _, _, _, _, rfl⟩ := done
    rfl
  · obtain ⟨_, rfl⟩ := pure_yields.mp done
    rfl

private theorem transitionJobExecution_plansKept {id : JobExecutionId} {expected : ExecutionVersion}
    {transition : LifecycleTransition} {answer : JobExecution}
    (done : transitionJobExecution id expected transition state = .ok (answer, state')) :
    PlansKept state state' := by
  simp only [transitionJobExecution, bind_yields, get_yields, lift_yields, require_ok,
    ofLifecycle_ok, modify_yields, pure_yields, existsAndEq, and_true, true_and] at done
  obtain ⟨_, _, _, _, _, rfl⟩ := done
  rfl

private theorem enrichJobExitStatus_plansKept {id : JobExecutionId} {expected : ExecutionVersion}
    {exitStatus : ExitStatus} {answer : JobExecution}
    (done : enrichJobExitStatus id expected exitStatus state = .ok (answer, state')) :
    PlansKept state state' := by
  simp only [enrichJobExitStatus, bind_yields, get_yields, lift_yields, require_ok,
    ofLifecycle_ok, modify_yields, pure_yields, existsAndEq, and_true, true_and] at done
  obtain ⟨_, _, _, _, _, rfl⟩ := done
  rfl

private theorem transitionStepExecution_plansKept {id : StepExecutionId}
    {expected : ExecutionVersion}
    {transition : LifecycleTransition} {answer : StepExecution}
    (done : transitionStepExecution id expected transition state = .ok (answer, state')) :
    PlansKept state state' := by
  simp only [transitionStepExecution, bind_yields, get_yields, lift_yields, require_ok,
    ofLifecycle_ok, modify_yields, pure_yields, existsAndEq, and_true, true_and] at done
  obtain ⟨_, _, _, _, _, rfl⟩ := done
  rfl

private theorem enrichStepExitStatus_plansKept {id : StepExecutionId} {expected : ExecutionVersion}
    {exitStatus : ExitStatus} {answer : StepExecution}
    (done : enrichStepExitStatus id expected exitStatus state = .ok (answer, state')) :
    PlansKept state state' := by
  simp only [enrichStepExitStatus, bind_yields, get_yields, lift_yields, require_ok,
    ofLifecycle_ok, modify_yields, pure_yields, existsAndEq, and_true, true_and] at done
  obtain ⟨_, _, _, _, _, rfl⟩ := done
  rfl

private theorem commitStepExecutionContext_plansKept {id : StepExecutionId}
    {expected : ExecutionVersion}
    {context : ExecutionContext} {answer : StepExecution}
    (done : commitStepExecutionContext id expected context state = .ok (answer, state')) :
    PlansKept state state' := by
  simp only [commitStepExecutionContext, bind_yields, get_yields, lift_yields, require_ok,
    ofLifecycle_ok, ensure_ok, modify_yields, pure_yields, existsAndEq, and_true, true_and] at done
  obtain ⟨_, _, _, _, _, _, _, _, _, _, rfl⟩ := done
  rfl

private theorem recoverJobExecution_plansKept {id : JobExecutionId} {request : RecoveryRequest}
    {answer : JobExecution × RecoveryDecision}
    (done : recoverJobExecution supply id request state = .ok (answer, state')) :
    PlansKept state state' := by
  simp only [recoverJobExecution, bind_yields, get_yields, lift_yields, require_ok, ensure_ok,
    modify_yields, pure_yields, existsAndEq, and_true, true_and] at done
  obtain ⟨_, _, _, _, _, _, _, _, _, _, _, _, rfl⟩ := done
  rfl

/-- Every operation keeps the partitions listed. -/
theorem Operation.perform_planned {createdPlans : ExtTreeSet StepExecutionId}
    {operation : Operation} {answer : Unit} (keyed : Keyed state) (planned : Planned state.plans)
    (done : operation.perform reader supply createdPlans state = .ok (answer, state')) :
    Planned state'.plans := by
  have kept (kept : PlansKept state state') : Planned state'.plans :=
    cast (congrArg Planned (Eq.symm kept)) planned
  have quiet (same : SameCore state state') : Planned state'.plans := kept (.quiet same)
  cases operation with
  | registerDefinition registration =>
    obtain ⟨_, done⟩ := discard_yields.mp done
    exact quiet (registerDefinition_quiet _ _ _ done)
  | registerDefinitionUpgrade jobName upgrade =>
    exact quiet (registerDefinitionUpgrade_quiet _ _ _ done)
  | selectOrCreateJobInstance key =>
    obtain ⟨_, done⟩ := discard_yields.mp done
    exact kept (selectOrCreateJobInstance_plansKept done)
  | createJobExecution instanceId definition parameters =>
    obtain ⟨_, done⟩ := discard_yields.mp done
    exact kept (createJobExecutionWithDefinition_effect done).plansKept
  | createJobExecutionWithUpgrade instanceId upgrade parameters =>
    obtain ⟨_, done⟩ := discard_yields.mp done
    exact kept (createJobExecutionWithUpgrade_effect done).plansKept
  | storeScopeResolutionProvenance entries =>
    exact quiet (storeScopeResolutionProvenance_quiet _ _ _ done)
  | createFlowStepExecution jobExecutionId stepName nodeId startLimit =>
    obtain ⟨_, done⟩ := discard_yields.mp done
    obtain ⟨_, _, _, _, _, core⟩ := (createFlowStepExecution_effect done).tables
    exact kept (.of_core core rfl rfl)
  | transitionJobExecution id expected transition =>
    obtain ⟨_, done⟩ := discard_yields.mp done
    exact kept (transitionJobExecution_plansKept done)
  | enrichJobExitStatus id expected exitStatus =>
    obtain ⟨_, done⟩ := discard_yields.mp done
    exact kept (enrichJobExitStatus_plansKept done)
  | transitionStepExecution id expected transition =>
    obtain ⟨_, done⟩ := discard_yields.mp done
    exact kept (transitionStepExecution_plansKept done)
  | enrichStepExitStatus id expected exitStatus =>
    obtain ⟨_, done⟩ := discard_yields.mp done
    exact kept (enrichStepExitStatus_plansKept done)
  | commitStepExecutionContext id expected context =>
    obtain ⟨_, done⟩ := discard_yields.mp done
    exact kept (commitStepExecutionContext_plansKept done)
  | appendFlowDecision request =>
    obtain ⟨_, done⟩ := discard_yields.mp done
    obtain ⟨_, rfl⟩ := appendFlowDecision_effect done
    exact planned
  | commitRepeatIteration request =>
    obtain ⟨_, done⟩ := discard_yields.mp done
    rcases commitRepeatIteration_effect done with ⟨rfl, _⟩ | ⟨_, rfl⟩
    · exact planned
    · exact planned
  | createNestedJobLink request =>
    obtain ⟨_, done⟩ := discard_yields.mp done
    exact kept (createNestedJobLink_plansKept reader keyed done)
  | continueNestedJobLink parent nodeId priorParent linkedAt =>
    obtain ⟨_, done⟩ := discard_yields.mp done
    exact kept (continueNestedJobLink_plansKept done)
  | observeNestedJobTerminal parent nodeId observedAt =>
    obtain ⟨_, done⟩ := discard_yields.mp done
    rcases observeNestedJobTerminal_effect done with rfl | ⟨_, _, _, _, _, rfl⟩
    · exact planned
    · exact planned
  | stageForkJobContext target context => exact quiet (stageForkJobContext_quiet _ _ _ done)
  | appendForkLineage lineage => exact quiet (appendForkLineage_quiet _ _ _ done)
  | createStepPartitionPlan stepExecutionId entries =>
    obtain ⟨_, done⟩ := discard_yields.mp done
    exact createStepPartitionPlan_planned planned done
  | restartStepPartitionPlan source target =>
    obtain ⟨_, done⟩ := discard_yields.mp done
    exact restartStepPartitionPlan_planned planned done
  | assignStepPartition id expected worker =>
    obtain ⟨_, done⟩ := discard_yields.mp done
    exact assignStepPartition_planned planned done
  | completeStepPartition id expected worker =>
    obtain ⟨_, done⟩ := discard_yields.mp done
    exact completeStepPartition_planned planned done
  | aggregateStepPartitions stepExecutionId expected transitionedAt =>
    obtain ⟨_, done⟩ := discard_yields.mp done
    exact kept (aggregateStepPartitions_plansKept done)
  | recoverJobExecution id request =>
    obtain ⟨_, done⟩ := discard_yields.mp done
    exact kept (recoverJobExecution_plansKept done)
  | appendOperatorRequest draft =>
    obtain ⟨_, done⟩ := discard_yields.mp done
    exact quiet (appendOperatorRequest_quiet _ _ _ done)
  | requestExecutionStop id expected requestedAt =>
    obtain ⟨_, done⟩ := discard_yields.mp done
    exact quiet (requestExecutionStop_quiet _ _ _ done)
  | claimExecutionOwner id expected owner claimedAt =>
    obtain ⟨_, done⟩ := discard_yields.mp done
    exact quiet (claimExecutionOwner_quiet _ _ _ done)
  | observeExecutionControl id owner observedAt =>
    obtain ⟨_, done⟩ := discard_yields.mp done
    exact kept (observeExecutionControl_plansKept done)
  | placeInstanceHold id actor reason placedAt =>
    obtain ⟨_, done⟩ := discard_yields.mp done
    exact quiet (placeInstanceHold_quiet _ _ _ done)
  | releaseInstanceHold id =>
    obtain ⟨_, done⟩ := discard_yields.mp done
    exact quiet (releaseInstanceHold_quiet _ _ _ done)
  | appendRetentionAction draft =>
    obtain ⟨_, done⟩ := discard_yields.mp done
    exact quiet (appendRetentionAction_quiet _ _ _ done)
  | applyPurge plan =>
    obtain ⟨_, done⟩ := discard_yields.mp done
    obtain ⟨rfl, _⟩ := applyPurge_effect done
    exact planned_purged planned _

theorem Follows.filed {entries : List Entry} (follows : Follows reader entries state) :
    Keyed state ∧ Filed state.core :=
  follows.invariant (fun _ _ => True) filed_empty (fun change _ _ filed => change.filed filed)
    fun _ _ => trivial

theorem Follows.planned {entries : List Entry} (follows : Follows reader entries state) :
    Planned state.plans := by
  induction follows with
  | start => exact Listed.empty
  | revised revision follows ih => exact ih
  | performed follows done ih => exact Operation.perform_planned follows.filed.1 ih done

end Operations

end OxideBatch.Repository
