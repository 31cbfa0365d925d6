import OxideBatch.Repository.Control

/-! Purging finished executions: the survey that selects and counts them, and the
application of its plan. -/

namespace OxideBatch.Repository

open OxideBatch.Core OxideBatch.Plan
open Std (ExtTreeMap ExtTreeSet)
open Tables

def maxPurgeBatch : Nat := 1000

/-- One hour, in nanoseconds. -/
def minPurgeAge : Duration := 3600 * 10 ^ 9

section Requests

structure PurgeBatchBound where
  get : Nat
  valid : 0 < get ∧ get ≤ maxPurgeBatch
  deriving DecidableEq

/-- A non-empty set of finished statuses. -/
structure TerminalStatusSet where
  statuses : ExtTreeSet BatchStatus
  finished : ∀ status ∈ statuses, status.isFinished = true
  nonempty : statuses ≠ ∅

def TerminalStatusSet.contains (set : TerminalStatusSet) (status : BatchStatus) : Bool :=
  set.statuses.contains status

structure PurgePlanRequest where
  jobName : JobName
  statuses : TerminalStatusSet
  minimumAge : Duration
  batch : PurgeBatchBound
  aged : minPurgeAge ≤ minimumAge

/-- An execution to purge, with the version it was planned at. -/
structure PurgeCandidate where
  jobInstanceId : JobInstanceId
  jobExecutionId : JobExecutionId
  version : ExecutionVersion
  deriving DecidableEq

def PurgeCandidate.key (candidate : PurgeCandidate) : Nat × Nat × Nat :=
  (candidate.jobInstanceId.get, candidate.jobExecutionId.get, candidate.version.val)

structure PurgeSurvey where
  candidates : List PurgeCandidate
  counts : PurgeCounts

structure PurgePlan where
  request : PurgePlanRequest
  candidates : List PurgeCandidate
  counts : PurgeCounts

def PurgePlan.new (request : PurgePlanRequest) (survey : PurgeSurvey) : PurgePlan :=
  ⟨request, survey.candidates, survey.counts⟩

end Requests

section Survey

variable (state : MemoryState)

/-- Whether a provenance source leads to an execution. -/
def sourceReferences (executionId : JobExecutionId) :
    ScopeResolutionSource → Except RepositoryError Bool
  | .jobParameter jobExecutionId _ | .jobContext jobExecutionId _ _ _ _
  | .framework _ jobExecutionId _ => .ok (jobExecutionId = executionId)
  | .stepContext _ (some stepId) _ _ _ _ => do
    let step ← require state.stepExecutions[stepId]? .scopeResolutionStateCorrupt
    pure (step.jobExecutionId = executionId)
  | .stepContext _ none _ _ _ _ => .ok false

def anySourceReferences (executionId : JobExecutionId) :
    List ScopeResolutionProvenance → Except RepositoryError Bool
  | [] => .ok false
  | provenance :: rest =>
    if provenance.ownerJobExecutionId = executionId then anySourceReferences executionId rest
    else do
      let references ← sourceReferences state executionId provenance.source
      if references then pure true else anySourceReferences executionId rest

/-- `scope_source_referenced_by_other_execution`. -/
def scopeSourceReferencedByOtherExecution (executionId : JobExecutionId) :
    Except RepositoryError Bool :=
  anySourceReferences state executionId (state.scopeResolutionProvenance.toList.map (·.2))

/-- Whether an execution of a resolved instance is purged: by status, age, and the
provenance that still leads to it. -/
def purgeable (request : PurgePlanRequest) (now : SystemTime) (execution : JobExecution) : Bool :=
  request.statuses.contains execution.status &&
    request.minimumAge ≤ (now - execution.updatedAt).toNat &&
    !(scopeSourceReferencedByOtherExecution state execution.id).toOption.getD true

/-- The candidates of one instance; it is of the job, not held, and has no execution
that is not finished. -/
def instanceCandidates (request : PurgePlanRequest) (now : SystemTime)
    (entry : JobInstanceId × JobInstance) : List PurgeCandidate :=
  let executions := state.executionsOf entry.1
  if entry.2.key.jobName ≠ request.jobName ∨ state.holds.contains entry.1 = true then []
  else if executions.any fun execution => !execution.status.isFinished then []
  else (executions.filter (purgeable state request now)).map fun execution =>
    ⟨entry.1, execution.id, execution.version⟩

def purgeEligible (request : PurgePlanRequest) (now : SystemTime) : List PurgeCandidate :=
  let candidates := state.instancesById.toList.flatMap (instanceCandidates state request now)
  (candidates.insertionSort fun left right => (compare left.key right.key).isLE).take
    request.batch.get

/-- `count_of`: the length of the list under a key. -/
def countUnder {Key Value : Type} [Ord Key] [Std.TransOrd Key]
    (table : ExtTreeMap Key (List Value)) (key : Key) : Nat :=
  (table[key]?.getD []).length

/-- The instances that lose all their executions. -/
def emptiedInstances (candidates : List PurgeCandidate) : List JobInstanceId :=
  let instances := candidates.map (·.jobInstanceId)
  instances.dedup.filter fun id =>
    countUnder state.jobExecutionsByInstance id = instances.count id

def purgeCounts (candidates : List PurgeCandidate) : PurgeCounts :=
  let executions := candidates.map (·.jobExecutionId)
  { flowDecisions := (executions.map (countUnder state.flowDecisionsByJob)).sum
    recoveryDecisions := (executions.map (countUnder state.recoveryDecisions)).sum
    operatorRequests := (executions.map fun id =>
      state.operatorRequests.toList.countP fun entry => entry.2.jobExecutionId = some id).sum
    stepPartitions := (executions.map fun id =>
      ((state.stepExecutionsByJob[id]?.getD []).map (countUnder state.stepPartitionsByStep)).sum).sum
    stepExecutions := (executions.map (countUnder state.stepExecutionsByJob)).sum
    jobExecutions := candidates.length
    jobInstances := (emptiedInstances state candidates).length }

/-- `purge_survey`. -/
def purgeSurvey (request : PurgePlanRequest) (now : SystemTime) : PurgeSurvey :=
  let candidates := purgeEligible state request now
  ⟨candidates, purgeCounts state candidates⟩

end Survey

section Apply

/-- A candidate is as it was planned, and its instance is still resolved. -/
def checkCandidate (state : MemoryState) (request : PurgePlanRequest) (candidate : PurgeCandidate) :
    Except RepositoryError Unit := do
  let execution ← require state.jobExecutions[candidate.jobExecutionId]? .retentionPlanStale
  ensure (execution.version = candidate.version && request.statuses.contains execution.status &&
    !state.holds.contains candidate.jobInstanceId) .retentionPlanStale
  ensure ((state.executionsOf candidate.jobInstanceId).all (·.status.isFinished))
    .retentionPlanStale

/-- A fork is never orphaned of its source or its target. -/
def forkOrphaned (state : MemoryState) (candidate : PurgeCandidate) : Bool :=
  state.forkLineages.toList.any fun entry =>
    entry.2.sourceExecutionId = candidate.jobExecutionId ||
      entry.2.targetExecutionId = candidate.jobExecutionId ||
      entry.2.targetInstanceId = candidate.jobInstanceId

def removeStepExecution (state : MemoryState) (id : StepExecutionId) : MemoryState :=
  { state with
    stepPartitions := eraseAll state.stepPartitions (state.stepPartitionsByStep[id]?.getD []),
    stepPartitionsByStep := state.stepPartitionsByStep.erase id,
    repeatExecutions := state.repeatExecutions.filter fun key _ => key.1 ≠ id,
    stepExecutions := state.stepExecutions.erase id,
    stepLogicalIds := state.stepLogicalIds.erase id,
    stepContexts := state.stepContexts.erase id }

def removeFlowDecisions (state : MemoryState) (id : JobExecutionId) : MemoryState :=
  { state with
    flowDecisions := eraseAll state.flowDecisions (state.flowDecisionsByJob[id]?.getD []),
    flowDecisionsByJob := state.flowDecisionsByJob.erase id }

/-- The operator requests about an execution go with their keys. -/
def removeOperatorRequests (state : MemoryState) (id : JobExecutionId) : MemoryState :=
  let removed := state.operatorRequests.toList.filter fun entry => entry.2.jobExecutionId = some id
  { state with
    operatorRequests := eraseAll state.operatorRequests (removed.map (·.1)),
    operatorRequestKeys := eraseAll state.operatorRequestKeys
      (removed.map fun entry => (entry.2.action.asStr, entry.2.operationId)) }

def removeStepExecutions (state : MemoryState) (id : JobExecutionId) : MemoryState :=
  (state.stepExecutionsByJob[id]?.getD []).foldl removeStepExecution
    { state with stepExecutionsByJob := state.stepExecutionsByJob.erase id }

def removeJobExecution (state : MemoryState) (candidate : PurgeCandidate) : MemoryState :=
  let id := candidate.jobExecutionId
  { state with
    jobExecutions := state.jobExecutions.erase id,
    executionAttempts := state.executionAttempts.erase id,
    jobParameters := state.jobParameters.erase id,
    forkJobContexts := state.forkJobContexts.erase id,
    scopeResolutionProvenance :=
      state.scopeResolutionProvenance.filter fun key _ => key.2.2.2.1 ≠ id,
    executionUpdatedAt := state.executionUpdatedAt.erase id,
    ownerTokens := state.ownerTokens.erase id,
    executionDefinitions := state.executionDefinitions.erase id,
    stopRequests := state.stopRequests.erase id,
    jobExecutionsByInstance := match state.jobExecutionsByInstance[candidate.jobInstanceId]? with
      | some listed => state.jobExecutionsByInstance.insert candidate.jobInstanceId
          (listed.filter (· ≠ id))
      | none => state.jobExecutionsByInstance }

/-- The rows of one candidate, in the order they are deleted. -/
def purgeCandidate (state : MemoryState) (candidate : PurgeCandidate) : MemoryState :=
  let id := candidate.jobExecutionId
  let decided := removeFlowDecisions state id
  let recovered := { decided with recoveryDecisions := decided.recoveryDecisions.erase id }
  removeJobExecution (removeStepExecutions (removeOperatorRequests recovered id) id) candidate

/-- An instance that has no execution left goes too. -/
def purgeInstance (state : MemoryState) (id : JobInstanceId) : MemoryState :=
  if state.jobExecutionsByInstance[id]? = some [] then
    match state.instancesById[id]? with
    | none => state
    | some purged =>
      { state with
        instancesById := state.instancesById.erase id,
        instancesByKey := state.instancesByKey.erase purged.key,
        jobExecutionsByInstance := state.jobExecutionsByInstance.erase id,
        nextExecutionAttemptByInstance := state.nextExecutionAttemptByInstance.erase id,
        instanceCreatedAt := state.instanceCreatedAt.erase id,
        holds := state.holds.erase id }
  else state

/-- `Vec::dedup`: of equal neighbours the first. -/
def dedupNeighbours [DecidableEq α] : List α → List α
  | [] => []
  | [last] => [last]
  | first :: second :: rest =>
    if first = second then dedupNeighbours (second :: rest)
    else first :: dedupNeighbours (second :: rest)

/-- What a plan that passes its checks leaves behind. -/
def purged (state : MemoryState) (candidates : List PurgeCandidate) : MemoryState :=
  (dedupNeighbours (candidates.map (·.jobInstanceId))).foldl purgeInstance
    (candidates.foldl purgeCandidate state)

def applyPurge (plan : PurgePlan) : StagedM PurgeCounts := do
  let state ← get
  plan.candidates.forM fun candidate => checkCandidate state plan.request candidate
  ensure (!plan.candidates.any (forkOrphaned state)) .retentionPlanStale
  modify fun state => purged state plan.candidates
  pure (purgeCounts state plan.candidates)

end Apply

end OxideBatch.Repository
