import OxideBatch.Repository.LaunchChecks

/-! What each operation does to the tables of instances, executions, steps, links,
partitions, decisions, and repeats. -/

namespace OxideBatch.Repository

open OxideBatch.Core OxideBatch.Plan Program
open Std (ExtTreeMap ExtTreeSet)
open Tables

variable {supply : Supply} {state state' : MemoryState}

section Core

/-- The tables behind the lifecycle of instances: all but definitions, scope provenance,
forks, and the records of operators. -/
structure CoreTables where
  instancesByKey : ExtTreeMap JobInstanceKey JobInstanceId
  instancesById : ExtTreeMap JobInstanceId JobInstance
  jobExecutions : ExtTreeMap JobExecutionId JobExecution
  jobExecutionsByInstance : ExtTreeMap JobInstanceId (List JobExecutionId)
  executionAttempts : ExtTreeMap JobExecutionId Nat
  nextExecutionAttemptByInstance : ExtTreeMap JobInstanceId Nat
  jobParameters : ExtTreeMap JobExecutionId JobParameters
  nestedJobLinks : ExtTreeMap (JobExecutionId × NodeId) NestedJobLink
  nestedJobLinksByInstance : ExtTreeMap (JobInstanceId × NodeId) (List JobExecutionId)
  stepExecutions : ExtTreeMap StepExecutionId StepExecution
  stepExecutionsByJob : ExtTreeMap JobExecutionId (List StepExecutionId)
  stepLogicalIds : ExtTreeMap StepExecutionId NodeId
  stepContexts : ExtTreeMap StepExecutionId ExecutionContext
  stepPartitions : ExtTreeMap StepPartitionId StepPartition
  stepPartitionsByStep : ExtTreeMap StepExecutionId (List StepPartitionId)
  flowDecisions : ExtTreeMap FlowDecisionId FlowDecision
  flowDecisionsByJob : ExtTreeMap JobExecutionId (List FlowDecisionId)
  repeatExecutions : ExtTreeMap (StepExecutionId × RepeatId) RepeatExecution
  executionDefinitions : ExtTreeMap JobExecutionId DefinitionIdentity
  upgradeSources : ExtTreeMap JobExecutionId JobExecutionId
  upgradeSeeds : ExtTreeMap (JobExecutionId × NodeId) MemoryUpgradeNodeSeed

def MemoryState.core (state : MemoryState) : CoreTables where
  instancesByKey := state.instancesByKey
  instancesById := state.instancesById
  jobExecutions := state.jobExecutions
  jobExecutionsByInstance := state.jobExecutionsByInstance
  executionAttempts := state.executionAttempts
  nextExecutionAttemptByInstance := state.nextExecutionAttemptByInstance
  jobParameters := state.jobParameters
  nestedJobLinks := state.nestedJobLinks
  nestedJobLinksByInstance := state.nestedJobLinksByInstance
  stepExecutions := state.stepExecutions
  stepExecutionsByJob := state.stepExecutionsByJob
  stepLogicalIds := state.stepLogicalIds
  stepContexts := state.stepContexts
  stepPartitions := state.stepPartitions
  stepPartitionsByStep := state.stepPartitionsByStep
  flowDecisions := state.flowDecisions
  flowDecisionsByJob := state.flowDecisionsByJob
  repeatExecutions := state.repeatExecutions
  executionDefinitions := state.executionDefinitions
  upgradeSources := state.upgradeSources
  upgradeSeeds := state.upgradeSeeds

/-- A change of other tables only. -/
def SameCore (state state' : MemoryState) : Prop := state'.core = state.core

theorem SameCore.refl (state : MemoryState) : SameCore state state := rfl

theorem SameCore.trans {first second third : MemoryState} (one : SameCore first second)
    (two : SameCore second third) : SameCore first third := Eq.trans two one

theorem ensureDefinition_quiet {jobName : JobName} {definition : DefinitionIdentity} :
    Keeps SameCore (ensureDefinition jobName definition) := by
  intro state answer state' done
  obtain ⟨_, _, rfl⟩ := ensureDefinition_updates done
  rfl

private theorem copyForwardScopeResolutionProvenance_quiet {sourceJob targetJob : JobExecutionId}
    {sourceStep targetStep : Option StepExecutionId} :
    Keeps SameCore
      (copyForwardScopeResolutionProvenance sourceJob sourceStep targetJob targetStep) := by
  refine Keeps.bind @SameCore.trans (Keeps.get SameCore.refl) fun _ => ?_
  refine Keeps.forM SameCore.refl @SameCore.trans (fun entry => ?_) _
  refine Keeps.bind @SameCore.trans (Keeps.lift SameCore.refl _) fun rebound => ?_
  refine Keeps.bind @SameCore.trans (Keeps.get SameCore.refl) fun middle => ?_
  refine Keeps.bind @SameCore.trans (Keeps.lift SameCore.refl _) fun _ => ?_
  split
  · exact Keeps.throw _
  · exact Keeps.modify fun _ => rfl

private theorem materializeScopeSeeds_quiet {jobExecutionId : JobExecutionId}
    {ownerStep : Option StepExecutionId} {seeds : List MemoryScopeSeed} :
    Keeps SameCore (materializeScopeSeeds jobExecutionId ownerStep seeds) := by
  intro state answer state' done
  simp only [materializeScopeSeeds, bind_yields, get_yields, modify_yields, existsAndEq, and_true,
    true_and] at done
  obtain ⟨entries, middle, built, rfl⟩ := done
  obtain ⟨rfl, _⟩ := mapM_yields (by
    intro seed before entry after yields
    simp only [bind_yields, lift_yields] at yields
    obtain ⟨_, _, ⟨_, rfl⟩, _, rfl⟩ := yields
    rfl) built
  rfl

theorem storeScopeResolutionProvenance_quiet {entries : List ScopeResolutionProvenance} :
    Keeps SameCore (storeScopeResolutionProvenance entries) := by
  refine Keeps.bind @SameCore.trans (Keeps.lift SameCore.refl _) fun _ => ?_
  cases entries with
  | nil => exact Keeps.pure SameCore.refl _
  | cons first rest =>
    refine Keeps.bind @SameCore.trans ?_ fun _ => Keeps.pure SameCore.refl _
    refine Keeps.foldlM SameCore.refl @SameCore.trans (fun held entry => ?_) _ _
    refine Keeps.bind @SameCore.trans (Keeps.lift SameCore.refl _) fun _ => ?_
    refine Keeps.bind @SameCore.trans (Keeps.get SameCore.refl) fun middle => ?_
    refine Keeps.bind @SameCore.trans (Keeps.lift SameCore.refl _) fun _ => ?_
    dsimp only
    split
    · exact Keeps.bind @SameCore.trans (Keeps.lift SameCore.refl _) fun _ =>
        Keeps.pure SameCore.refl _
    · exact Keeps.bind @SameCore.trans (Keeps.modify fun _ => rfl) fun _ =>
        Keeps.pure SameCore.refl _

end Core

section Lifecycle

/-- A finished execution moves to a finished status only. -/
theorem isLegalInPlaceTransition_finished {source target : BatchStatus}
    (legal : isLegalInPlaceTransition source target = true)
    (finished : source.isFinished = true) : target.isFinished = true := by
  cases source with
  | stopped => cases target <;> first | rfl | cases legal
  | failed => cases target <;> first | rfl | cases legal
  | completed => cases target <;> cases legal
  | abandoned => cases target <;> cases legal
  | _ => cases finished

theorem validateTransition_ok {source : BatchStatus} {transition : LifecycleTransition}
    {answer : Unit} (valid : validateTransition source transition = .ok answer) :
    isLegalInPlaceTransition source transition.target = true := by
  unfold validateTransition at valid
  split at valid
  · cases valid
  · split at valid
    · cases valid
    · rename_i legal
      simpa using legal

theorem ExecutionMetadata.new_ok {status : BatchStatus} {exitStatus : ExitStatus}
    {timestamps : ExecutionTimestamps} {counts : ExecutionCounts} {failure : Option FailureSummary}
    {metadata : ExecutionMetadata}
    (made : ExecutionMetadata.new status exitStatus timestamps counts failure = .ok metadata) :
    metadata.status = status ∧ metadata.exitStatus = exitStatus ∧ metadata.counts = counts ∧
      metadata.timestamps = timestamps ∧ metadata.failure = failure := by
  unfold ExecutionMetadata.new at made
  split at made
  · split at made
    · split at made
      · cases made
        exact ⟨rfl, rfl, rfl, rfl, rfl⟩
      · cases made
    · cases made
  · cases made

theorem ExecutionMetadata.transition_ok {before after : ExecutionMetadata}
    {transition : LifecycleTransition} (moved : before.transition transition = .ok after) :
    isLegalInPlaceTransition before.status transition.target = true ∧
      after.status = transition.target ∧ after.exitStatus = before.exitStatus := by
  unfold ExecutionMetadata.transition at moved
  obtain ⟨_, valid, moved⟩ := bind_ok.mp moved
  have legal := validateTransition_ok valid
  split at moved
  · cases moved
  · obtain ⟨timestamps, _, moved⟩ := bind_ok.mp moved
    have made : ∃ counts, (ExecutionMetadata.new transition.target before.exitStatus timestamps
        counts (transition.failure.or before.failure)).mapError transitionError = .ok after := by
      dsimp only at moved
      split at moved
      · obtain ⟨counts, _, moved⟩ := bind_ok.mp moved
        exact ⟨counts, moved⟩
      · exact ⟨before.counts, moved⟩
    obtain ⟨counts, made⟩ := made
    obtain ⟨status, exitStatus, _⟩ := ExecutionMetadata.new_ok (mapError_ok.mp made)
    exact ⟨legal, status, exitStatus⟩

theorem Versioned.transition_ok {before after : Versioned} {expected : ExecutionVersion}
    {transition : LifecycleTransition} (moved : before.transition expected transition = .ok after) :
    isLegalInPlaceTransition before.metadata.status transition.target = true ∧
      after.metadata.status = transition.target ∧
      after.metadata.exitStatus = before.metadata.exitStatus := by
  simp only [Versioned.transition, bind_ok, pure_ok] at moved
  obtain ⟨_, _, metadata, held, version, _, rfl⟩ := moved
  exact ExecutionMetadata.transition_ok held

theorem Versioned.enrichExitStatus_ok {before after : Versioned} {expected : ExecutionVersion}
    {exitStatus : ExitStatus} (moved : before.enrichExitStatus expected exitStatus = .ok after) :
    after.metadata = before.metadata.withExitStatus exitStatus := by
  simp only [Versioned.enrichExitStatus, bind_ok, pure_ok] at moved
  obtain ⟨_, _, version, _, rfl⟩ := moved
  rfl

theorem JobExecution.transition_ok {before after : JobExecution} {expected : ExecutionVersion}
    {transition : LifecycleTransition} (moved : before.transition expected transition = .ok after) :
    after.id = before.id ∧ after.jobInstanceId = before.jobInstanceId ∧
      isLegalInPlaceTransition before.status transition.target = true ∧
      after.status = transition.target ∧ after.metadata.exitStatus = before.metadata.exitStatus := by
  simp only [JobExecution.transition, bind_ok, pure_ok] at moved
  obtain ⟨record, held, rfl⟩ := moved
  exact ⟨rfl, rfl, Versioned.transition_ok held⟩

theorem JobExecution.enrichExitStatus_ok {before after : JobExecution} {expected : ExecutionVersion}
    {exitStatus : ExitStatus} (moved : before.enrichExitStatus expected exitStatus = .ok after) :
    after.id = before.id ∧ after.jobInstanceId = before.jobInstanceId ∧
      after.status = before.status := by
  simp only [JobExecution.enrichExitStatus, bind_ok, pure_ok] at moved
  obtain ⟨record, held, rfl⟩ := moved
  have same := Versioned.enrichExitStatus_ok held
  refine ⟨rfl, rfl, ?_⟩
  change record.metadata.status = before.metadata.status
  rw [same]
  rfl

theorem StepExecution.transition_ok {before after : StepExecution} {expected : ExecutionVersion}
    {transition : LifecycleTransition} (moved : before.transition expected transition = .ok after) :
    after.id = before.id ∧ after.jobExecutionId = before.jobExecutionId := by
  simp only [StepExecution.transition, bind_ok, pure_ok] at moved
  obtain ⟨record, held, rfl⟩ := moved
  exact ⟨rfl, rfl⟩

theorem StepExecution.enrichExitStatus_ok {before after : StepExecution}
    {expected : ExecutionVersion} {exitStatus : ExitStatus}
    (moved : before.enrichExitStatus expected exitStatus = .ok after) :
    after.id = before.id ∧ after.jobExecutionId = before.jobExecutionId := by
  simp only [StepExecution.enrichExitStatus, bind_ok, pure_ok] at moved
  obtain ⟨record, held, rfl⟩ := moved
  exact ⟨rfl, rfl⟩

end Lifecycle

section Launch

/-- An instance is found under its key, or entered under a new identifier. -/
theorem selectOrCreateJobInstance_effect {key : JobInstanceKey} {answer : JobInstance}
    (done : selectOrCreateJobInstance supply key state = .ok (answer, state')) :
    (state' = state ∧ ∃ id, state.instancesByKey[key]? = some id ∧
      state.instancesById[id]? = some answer) ∨
    (answer.key = key ∧ state.instancesByKey[key]? = none ∧ answer.id ∉ state.instancesById ∧
      state'.core = { state.core with
        instancesByKey := state.instancesByKey.insert key answer.id
        instancesById := state.instancesById.insert answer.id answer
        jobExecutionsByInstance := state.jobExecutionsByInstance.insert answer.id [] }) := by
  simp only [selectOrCreateJobInstance, bind_yields, get_yields, existsAndEq, and_true,
    true_and] at done
  cases free : state.instancesByKey[key]? with
  | some id =>
    simp only [free, lift_yields, require_ok] at done
    obtain ⟨found, rfl⟩ := done
    exact .inl ⟨rfl, id, rfl, found⟩
  | none =>
    simp only [free, bind_yields, lift_yields, require_ok, existsAndEq, and_true] at done
    obtain ⟨id, drawn, done⟩ := done
    split at done
    · simp at done
    · rename_i unused
      simp only [bind_yields, modify_yields, pure_yields, existsAndEq, and_true, true_and] at done
      obtain ⟨_, rfl, rfl⟩ := done
      refine .inr ⟨rfl, rfl, by simpa using unused, ?_⟩
      unfold MemoryState.registerJobName
      split
      · rfl
      · rfl

/-- What the launch of a new attempt does. -/
structure Launched (supply : Supply) (instanceId : JobInstanceId) (definition : DefinitionIdentity)
    (upgraded : Bool) (state : MemoryState) (execution : JobExecution) (state' : MemoryState) :
    Prop where
  drawn : supply.jobExecutionId = some execution.id
  made : execution = .new execution.id instanceId (.starting supply.now .zero)
  owner : instanceId ∈ state.instancesById
  unused : execution.id ∉ state.jobExecutions
  tables : ∃ (listed : List JobExecutionId) (parameters : ExtTreeMap JobExecutionId JobParameters)
      (sources : ExtTreeMap JobExecutionId JobExecutionId)
      (seeds : ExtTreeMap (JobExecutionId × NodeId) MemoryUpgradeNodeSeed),
    state.jobExecutionsByInstance[instanceId]? = some listed ∧
    (∀ last row, listed.getLast? = some last → state.jobExecutions[last]? = some row →
      (row.status = .stopped ∨ row.status = .failed) ∧
      (upgraded = false → ∃ previous, state.executionDefinitions[row.id]? = some previous ∧
        previous.manifestDigest = definition.manifestDigest)) ∧
    (∀ other ≠ execution.id, parameters[other]? = state.jobParameters[other]?) ∧
    (upgraded = false → sources = state.upgradeSources ∧ seeds = state.upgradeSeeds) ∧
    state'.core = { state.core with
      jobExecutions := state.jobExecutions.insert execution.id execution
      executionAttempts := state.executionAttempts.insert execution.id
        (state.nextExecutionAttemptByInstance[instanceId]?.getD 0 + 1)
      nextExecutionAttemptByInstance := state.nextExecutionAttemptByInstance.insert instanceId
        (state.nextExecutionAttemptByInstance[instanceId]?.getD 0 + 1)
      executionDefinitions := state.executionDefinitions.insert execution.id definition
      jobParameters := parameters
      upgradeSources := sources
      upgradeSeeds := seeds
      jobExecutionsByInstance :=
        state.jobExecutionsByInstance.insert instanceId (listed ++ [execution.id]) }
  seeded : ∀ key : JobExecutionId × NodeId, key.1 ≠ execution.id →
    state'.upgradeSeeds[key]? = state.upgradeSeeds[key]?

/-- A change of the launch tables besides rows: parameters of one execution and seeds. -/
def Inherits (id : JobExecutionId) (upgraded : Bool) (state state' : MemoryState) : Prop :=
  ∃ parameters sources seeds,
    (∀ other ≠ id, parameters[other]? = state.jobParameters[other]?) ∧
    (∀ key : JobExecutionId × NodeId, key.1 ≠ id → seeds[key]? = state.upgradeSeeds[key]?) ∧
    (upgraded = false → sources = state.upgradeSources ∧ seeds = state.upgradeSeeds) ∧
    state'.core = { state.core with
      jobParameters := parameters, upgradeSources := sources, upgradeSeeds := seeds }

private theorem inheritParameters_inherits {id : JobExecutionId} {parameters : Option JobParameters}
    {upgraded : Bool} : Keeps (Inherits id upgraded) (inheritParameters id parameters) := by
  intro state answer state' done
  cases parameters with
  | none =>
    obtain ⟨_, rfl⟩ := pure_yields.mp done
    exact ⟨_, _, _, fun _ _ => rfl, fun _ _ => rfl, fun _ => ⟨rfl, rfl⟩, rfl⟩
  | some parameters =>
    rw [← modify_yields.mp done]
    refine ⟨_, _, _, fun other different => ?_, fun _ _ => rfl, fun _ => ⟨rfl, rfl⟩, rfl⟩
    rw [lookup_insert, if_neg different.symm]

theorem Inherits.trans {id : JobExecutionId} {upgraded : Bool} {first second third : MemoryState}
    (one : Inherits id upgraded first second) (two : Inherits id upgraded second third) :
    Inherits id upgraded first third := by
  obtain ⟨_, _, _, kept, others, same, core⟩ := one
  obtain ⟨parameters, sources, seeds, kept', others', same', core'⟩ := two
  have held : second.jobParameters = _ := congrArg CoreTables.jobParameters core
  have sourced : second.upgradeSources = _ := congrArg CoreTables.upgradeSources core
  have seeded : second.upgradeSeeds = _ := congrArg CoreTables.upgradeSeeds core
  refine ⟨parameters, sources, seeds, fun other different => ?_, fun key different => ?_,
    fun plain => ?_, ?_⟩
  · rw [kept' other different, held]
    exact kept other different
  · rw [others' key different, seeded]
    exact others key different
  · exact ⟨(same' plain).1.trans (sourced.trans (same plain).1),
      (same' plain).2.trans (seeded.trans (same plain).2)⟩
  · rw [core', core]

private theorem inherits_of_sameCore {id : JobExecutionId} {upgraded : Bool}
    (same : SameCore state state') : Inherits id upgraded state state' :=
  ⟨_, _, _, fun _ _ => rfl, fun _ _ => rfl, fun _ => ⟨rfl, rfl⟩, same⟩

/-- The seeds of one execution are installed beside those of the others. -/
private theorem lookup_installed {id : JobExecutionId}
    {seeds : List (NodeId × MemoryUpgradeNodeSeed)}
    {table : ExtTreeMap (JobExecutionId × NodeId) MemoryUpgradeNodeSeed}
    {key : JobExecutionId × NodeId} (other : key.1 ≠ id) :
    (seeds.foldl (fun table seed => table.insert (id, seed.1) seed.2) table)[key]? =
      table[key]? := by
  induction seeds generalizing table with
  | nil => rfl
  | cons seed seeds ih =>
    have different : (id, seed.1) ≠ key := fun same => other (same ▸ rfl)
    rw [List.foldl_cons, ih, lookup_insert, if_neg different]

private theorem inheritState_inherits {id : JobExecutionId} {source : Option JobExecutionId}
    {upgraded : Bool} {seeds : NodeSeeds × List MemoryScopeSeed}
    {parameters : Option JobParameters} :
    Keeps (Inherits id upgraded) (inheritState id source upgraded seeds parameters) := by
  cases upgraded with
  | true =>
    refine Keeps.bind (@Inherits.trans _ _) ?_ fun _ => inheritParameters_inherits
    refine Keeps.bind (@Inherits.trans _ _) (fun state answer state' done =>
      inherits_of_sameCore (materializeScopeSeeds_quiet state answer state' done)) fun _ => ?_
    refine Keeps.modify fun state => ⟨_, _, _, fun _ _ => rfl, ?_, ?_, rfl⟩
    · exact fun key different => lookup_installed different
    · simp
  | false =>
    refine Keeps.bind (@Inherits.trans _ _) inheritParameters_inherits fun _ => ?_
    cases source with
    | none => exact Keeps.pure (fun _ => inherits_of_sameCore (SameCore.refl _)) _
    | some source => exact fun state answer state' done =>
        inherits_of_sameCore (copyForwardScopeResolutionProvenance_quiet state answer state' done)

/-- A launch goes on with the parameters it is given. -/
theorem Launched.inherits {instanceId : JobInstanceId} {definition : DefinitionIdentity}
    {upgraded : Bool} {execution : JobExecution} {state'' : MemoryState}
    (launched : Launched supply instanceId definition upgraded state execution state')
    (inherited : Inherits execution.id upgraded state' state'') :
    Launched supply instanceId definition upgraded state execution state'' := by
  obtain ⟨listed, _, _, _, lists, restarts, kept, plain, core⟩ := launched.tables
  obtain ⟨parameters, sources, seeds, kept', others', plain', core'⟩ := inherited
  have held : state'.jobParameters = _ := congrArg CoreTables.jobParameters core
  have sourced : state'.upgradeSources = _ := congrArg CoreTables.upgradeSources core
  have seeded : state'.upgradeSeeds = _ := congrArg CoreTables.upgradeSeeds core
  have last : state''.upgradeSeeds = seeds := congrArg CoreTables.upgradeSeeds core'
  refine ⟨launched.drawn, launched.made, launched.owner, launched.unused, ⟨listed, parameters,
    sources, seeds, lists, restarts, ?_, ?_, ?_⟩, ?_⟩
  · intro other different
    rw [kept' other different, held]
    exact kept other different
  · intro unchanged
    exact ⟨(plain' unchanged).1.trans (sourced.trans (plain unchanged).1),
      (plain' unchanged).2.trans (seeded.trans (plain unchanged).2)⟩
  · rw [core', core]
  · intro key different
    rw [last, others' key different]
    exact launched.seeded key different

private theorem checkDefinition_same {instanceId : JobInstanceId} {jobName : JobName}
    {latest : JobExecution} {definition : DefinitionIdentity} {answer : Unit}
    (done : checkDefinition state instanceId jobName latest definition none = .ok answer) :
    ∃ previous, state.executionDefinitions[latest.id]? = some previous ∧
      previous.manifestDigest = definition.manifestDigest := by
  simp only [checkDefinition, bind_ok, require_ok] at done
  obtain ⟨previous, found, done⟩ := done
  refine ⟨previous, found, ?_⟩
  split at done
  · simp at done
  · rename_i same
    simpa using same

theorem createJobExecution_effect {instanceId : JobInstanceId} {definition : DefinitionIdentity}
    {upgrade : Option DefinitionUpgradeExecution} {execution : JobExecution}
    (done : createJobExecution supply instanceId definition upgrade state =
      .ok (execution, state')) :
    Launched supply instanceId definition upgrade.isSome state execution state' := by
  simp only [createJobExecution, bind_yields, get_yields, lift_yields, require_ok, existsAndEq,
    and_true, true_and] at done
  obtain ⟨jobInstance, owner, _, middle, defined, done⟩ := done
  obtain ⟨jobNameOrder, definitions, rfl⟩ := ensureDefinition_updates defined
  simp only [createAttempt, bind_yields, get_yields, lift_yields, require_ok, ensure_ok,
    modify_yields, pure_yields, existsAndEq, and_true, true_and] at done
  obtain ⟨latest, found, _, checked, seeds, collected, id, drawn, _, unused, attempt, next, _, _,
    inner, done, listed, lists, _, rfl, rfl⟩ := done
  obtain ⟨parameters, sources, seeds', kept, others, plain, core⟩ :=
    inheritState_inherits _ _ _ done
  have lists : state.jobExecutionsByInstance[instanceId]? = some listed := by
    rw [← lists]
    exact congrArg (·[instanceId]?) (congrArg CoreTables.jobExecutionsByInstance core).symm
  obtain rfl := nextAttempt_ok next
  refine ⟨drawn, rfl, mem_of_lookup owner, not_contains.mp unused, ⟨listed, parameters, sources,
    seeds', lists, ?_, kept, ?_, ?_⟩, ?_⟩
  · intro last row isLast stored
    have same : latest = some row := by
      rw [latestJobExecution_ok found lists, isLast]
      exact stored
    rw [same] at checked
    refine ⟨checkLatest_ok checked row rfl, ?_⟩
    intro plain
    have absent : upgrade = none := by simpa using plain
    rw [absent] at checked
    obtain ⟨_, _, checked⟩ := bind_ok.mp checked
    exact checkDefinition_same checked
  · exact plain
  · have listing : inner.jobExecutionsByInstance = state.jobExecutionsByInstance :=
      congrArg CoreTables.jobExecutionsByInstance core
    change { inner.core with
      jobExecutionsByInstance :=
        inner.jobExecutionsByInstance.insert instanceId (listed ++ [id]) } = _
    rw [core, listing]
    rfl
  · intro key different
    exact (congrArg (·[key]?) (congrArg CoreTables.upgradeSeeds core)).trans (others key different)

theorem createJobExecutionWithDefinition_effect {instanceId : JobInstanceId}
    {definition : DefinitionIdentity} {parameters : Option JobParameters} {execution : JobExecution}
    (done : createJobExecutionWithDefinition supply instanceId definition parameters state =
      .ok (execution, state')) :
    Launched supply instanceId definition false state execution state' := by
  simp only [createJobExecutionWithDefinition, bind_yields, pure_yields] at done
  obtain ⟨created, middle, done, _, last, inherited, rfl, rfl⟩ := done
  exact (createJobExecution_effect done).inherits (inheritParameters_inherits _ _ _ inherited)

theorem createJobExecutionWithUpgrade_effect {instanceId : JobInstanceId}
    {upgrade : DefinitionUpgradeExecution} {parameters : Option JobParameters}
    {execution : JobExecution}
    (done : createJobExecutionWithUpgrade supply instanceId upgrade parameters state =
      .ok (execution, state')) :
    Launched supply instanceId upgrade.upgrade.target true state execution state' := by
  simp only [createJobExecutionWithUpgrade, bind_yields, pure_yields] at done
  obtain ⟨created, middle, done, _, last, inherited, rfl, rfl⟩ := done
  exact (createJobExecution_effect done).inherits (inheritParameters_inherits _ _ _ inherited)

end Launch

section Steps

/-- What the creation of a step does; only an upgrade seed brings repeats along. -/
structure StepEntered (supply : Supply) (jobExecutionId : JobExecutionId) (nodeId : NodeId)
    (startLimit : Nat) (state : MemoryState) (execution : StepExecution) (state' : MemoryState) :
    Prop where
  drawn : supply.stepExecutionId = some execution.id
  owner : execution.jobExecutionId = jobExecutionId
  fresh : execution.status = .starting ∧ execution.version = .initial
  stored : ∃ row, state.jobExecutions[jobExecutionId]? = some row ∧
    historicalStarts state row.jobInstanceId nodeId < startLimit
  unused : execution.id ∉ state.stepExecutions
  tables : ∃ (contexts : ExtTreeMap StepExecutionId ExecutionContext)
      (repeats : ExtTreeMap (StepExecutionId × RepeatId) RepeatExecution),
    (∀ other ≠ execution.id, contexts[other]? = state.stepContexts[other]?) ∧
    (∀ key : StepExecutionId × RepeatId, key.1 ≠ execution.id →
      repeats[key]? = state.repeatExecutions[key]?) ∧
    (state.upgradeSeeds[(jobExecutionId, nodeId)]? = none → repeats = state.repeatExecutions) ∧
    state'.core = { state.core with
      stepExecutions := state.stepExecutions.insert execution.id execution
      stepLogicalIds := state.stepLogicalIds.insert execution.id nodeId
      stepContexts := contexts
      repeatExecutions := repeats
      stepExecutionsByJob := pushUnder state.stepExecutionsByJob jobExecutionId execution.id }

private theorem lookup_materializeRepeats {instanceId : JobInstanceId} {nodeId : NodeId}
    {id : StepExecutionId} {fingerprint : Digest} {repeats : List RepeatExecution}
    {table : ExtTreeMap (StepExecutionId × RepeatId) RepeatExecution}
    {key : StepExecutionId × RepeatId} (other : key.1 ≠ id) :
    (materializeRepeats instanceId nodeId id fingerprint repeats table)[key]? = table[key]? := by
  unfold materializeRepeats
  induction repeats generalizing table with
  | nil => rfl
  | cons repeated repeats ih =>
    have different : (id, repeated.repeatId) ≠ key := fun same => other (same ▸ rfl)
    rw [List.foldl_cons, ih, lookup_insert, if_neg different]

/-- The repeats of one new step change, and only from a seed. -/
def TakesRepeats (id : StepExecutionId) (seed : Option MemoryUpgradeNodeSeed)
    (state state' : MemoryState) : Prop :=
  ∃ repeats : ExtTreeMap (StepExecutionId × RepeatId) RepeatExecution,
    (∀ key : StepExecutionId × RepeatId, key.1 ≠ id →
      repeats[key]? = state.repeatExecutions[key]?) ∧
    (seed = none → repeats = state.repeatExecutions) ∧
    state'.core = { state.core with repeatExecutions := repeats }

private theorem installStepSeed_takesRepeats {instanceId : JobInstanceId}
    {jobExecutionId : JobExecutionId}
    {nodeId : NodeId} {id : StepExecutionId} {seed : Option MemoryUpgradeNodeSeed} :
    Keeps (TakesRepeats id seed) (installStepSeed instanceId jobExecutionId nodeId id seed) := by
  intro state answer state' done
  cases seed with
  | none =>
    obtain ⟨_, rfl⟩ := pure_yields.mp done
    exact ⟨_, fun _ _ => rfl, fun _ => rfl, rfl⟩
  | some seed =>
    obtain ⟨_, middle, installed, materialized⟩ := bind_yields.mp done
    have same := materializeScopeSeeds_quiet _ _ _ materialized
    unfold installRepeats at installed
    split at installed
    · obtain ⟨_, rfl⟩ := pure_yields.mp installed
      exact ⟨_, fun _ _ => rfl, nofun, same⟩
    · simp only [bind_yields, get_yields, lift_yields, require_ok, modify_yields, existsAndEq,
        and_true, true_and] at installed
      obtain ⟨definition, _, rfl⟩ := installed
      exact ⟨_, fun _ other => lookup_materializeRepeats other, nofun, same⟩

private theorem continueStep_quiet {jobExecutionId : JobExecutionId} {id : StepExecutionId}
    {prior : Option FlowStepState} : Keeps SameCore (continueStep jobExecutionId id prior) := by
  cases prior with
  | none => exact Keeps.pure SameCore.refl _
  | some prior => exact copyForwardScopeResolutionProvenance_quiet

theorem createFlowStepExecution_effect {jobExecutionId : JobExecutionId} {stepName : StepName}
    {nodeId : NodeId} {startLimit : Nat} {execution : StepExecution}
    (done : createFlowStepExecution supply jobExecutionId stepName nodeId startLimit state =
      .ok (execution, state')) :
    StepEntered supply jobExecutionId nodeId startLimit state execution state' := by
  simp only [createFlowStepExecution, bind_yields, get_yields, lift_yields, require_ok, ensure_ok,
    modify_yields, pure_yields, existsAndEq, and_true, true_and] at done
  obtain ⟨instanceId, owner, _, limited, id, drawn, _, unused, prior, _, _, _, middle, installed, _,
    last, continued, _, rfl, rfl⟩ := done
  obtain ⟨row, stored, rfl⟩ := instanceForExecution_ok owner
  obtain ⟨repeats, kept, plain, core⟩ := installStepSeed_takesRepeats _ _ _ installed
  have same := continueStep_quiet _ _ _ continued
  have lists : last.stepExecutionsByJob = state.stepExecutionsByJob :=
    (congrArg CoreTables.stepExecutionsByJob same).trans
      (congrArg CoreTables.stepExecutionsByJob core)
  have contexts : middle.stepContexts = _ := congrArg CoreTables.stepContexts core
  refine ⟨drawn, rfl, ⟨rfl, rfl⟩, ⟨row, stored, of_decide_eq_true limited⟩, not_contains.mp unused,
    middle.stepContexts, repeats, ?_, kept, plain, ?_⟩
  · intro other different
    rw [contexts]
    change (insertStepExecution _ nodeId _ state).stepContexts[other]? = _
    unfold insertStepExecution
    dsimp only
    split
    · rw [lookup_insert, if_neg different.symm]
    · rfl
  · change { last.core with
      stepExecutionsByJob := pushUnder last.stepExecutionsByJob jobExecutionId id } = _
    rw [same, lists, core, contexts]
    rfl

end Steps

end OxideBatch.Repository
