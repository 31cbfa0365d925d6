import OxideBatch.Repository.Nested

/-! Operators: recovery, stop requests, ownership, holds, and the audit records. -/

namespace OxideBatch.Repository

open OxideBatch.Core OxideBatch.Plan
open Std (ExtTreeMap ExtTreeSet)
open Tables

section Recovery

/-- The metadata a recovery leaves behind: ended now, in the status decided. -/
def recoveredMetadata (prior : ExecutionMetadata) (request : RecoveryRequest)
    (decidedAt : SystemTime) : Except RepositoryError ExecutionMetadata := do
  let timestamps ← (ExecutionTimestamps.new prior.timestamps.createdAt prior.timestamps.startedAt
    (some decidedAt)).mapError .domain
  (ExecutionMetadata.new request.disposition.resultingStatus prior.exitStatus timestamps
    prior.counts request.disposition.failure).mapError .domain

/-- `recovered_execution`. -/
def recoveredExecution (prior : JobExecution) (request : RecoveryRequest) (decidedAt : SystemTime) :
    Except RepositoryError JobExecution := do
  ofLifecycle (validateExpectedVersion request.expectedVersion prior.version)
  ensure (!prior.status.isFinished) (.recoveryNotAllowed prior.id prior.status)
  let metadata ← recoveredMetadata prior.metadata request decidedAt
  let version ← ofLifecycle prior.version.next
  pure { prior with metadata, version }

/-- `recovered_step_execution`: a finished child stays as it is. -/
def recoveredStepExecution (prior : StepExecution) (request : RecoveryRequest)
    (decidedAt : SystemTime) : Except RepositoryError (Option StepExecution) :=
  if prior.status.isFinished then .ok none
  else do
    let metadata ← recoveredMetadata prior.metadata request decidedAt
    let version ← ofLifecycle prior.version.next
    pure (some { prior with metadata, version })

/-- `next_recovery_decision_id`: the identifiers are shared by all executions. -/
def nextRecoveryDecisionId (state : MemoryState) : Except RepositoryError RecoveryDecisionId :=
  let ids := state.recoveryDecisions.toList.flatMap fun entry => entry.2.map (·.id)
  nextId (ids.foldl (fun held id =>
    if held.any (id.get ≤ ·.get) then held else some id) none)

/-- The children a recovery closes with their job. -/
def recoveredChildren (state : MemoryState) (id : JobExecutionId) (request : RecoveryRequest)
    (decidedAt : SystemTime) : Except RepositoryError (List StepExecution) := do
  let children ← (state.stepExecutionsByJob[id]?.getD []).mapM fun childId => do
    let prior ← require state.stepExecutions[childId]? .flowStateCorrupt
    recoveredStepExecution prior request decidedAt
  pure (children.filterMap fun child => child)

def recoverJobExecution (supply : Supply) (id : JobExecutionId) (request : RecoveryRequest) :
    StagedM (JobExecution × RecoveryDecision) := do
  let state ← get
  let prior ← require state.jobExecutions[id]? (.jobExecutionNotFound id)
  ensure (!((state.recoveryDecisions[id]?.getD []).any
    (·.executionVersion = request.expectedVersion))) .concurrentModification
  let recovered ← recoveredExecution prior request supply.now
  let children ← recoveredChildren state id request supply.now
  let decisionId ← nextRecoveryDecisionId state
  let decision : RecoveryDecision :=
    ⟨decisionId, id, request.expectedVersion, prior.status, recovered.status, request.reasonCode,
      request.operatorReference, request.evidenceDigest, supply.now⟩
  modify fun state =>
    { state with
      jobExecutions := state.jobExecutions.insert id recovered,
      stepExecutions := children.foldl (fun table child => table.insert child.id child)
        state.stepExecutions,
      executionUpdatedAt := state.executionUpdatedAt.insert id supply.now,
      recoveryDecisions := pushUnder state.recoveryDecisions id decision }
  pure (recovered, decision)

end Recovery

section Operators

/-- `append_operator_request`. -/
def appendOperatorRequest (draft : OperatorRecordDraft) : StagedM OperatorRecord := do
  let state ← get
  let key := (draft.action.asStr, draft.operationId)
  ensure (!state.operatorRequestKeys.contains key) .concurrentModification
  let id ← nextId state.operatorRequests.maxKey?
  modify fun state =>
    { state with
      operatorRequests := state.operatorRequests.insert id ⟨draft, id⟩,
      operatorRequestKeys := state.operatorRequestKeys.insert key id }
  pure ⟨draft, id⟩

def requestExecutionStop (id : JobExecutionId) (expected : ExecutionVersion)
    (requestedAt : SystemTime) : StagedM JobExecution := do
  let execution ← require (← get).jobExecutions[id]? (.jobExecutionNotFound id)
  ofLifecycle (validateExpectedVersion expected execution.version)
  modify fun state =>
    { state with
      stopRequests := state.stopRequests.insert id requestedAt,
      executionUpdatedAt := state.executionUpdatedAt.insert id requestedAt }
  pure execution

def claimExecutionOwner (id : JobExecutionId) (expected : ExecutionVersion) (owner : OwnerToken)
    (claimedAt : SystemTime) : StagedM JobExecution := do
  let state ← get
  let execution ← require state.jobExecutions[id]? (.jobExecutionNotFound id)
  ofLifecycle (validateExpectedVersion expected execution.version)
  ensure (execution.status = .starting) (.executionOwnershipNotAllowed id execution.status)
  ensure (!state.ownerTokens[id]?.any (· ≠ owner)) (.executionOwned id)
  modify fun state =>
    { state with
      ownerTokens := state.ownerTokens.insert id owner,
      executionUpdatedAt := state.executionUpdatedAt.insert id claimedAt }
  pure execution

structure ExecutionControl where
  execution : JobExecution
  ownerMatches : Bool
  stopRequested : Bool

/-- `observe_execution_control`: the owner of an execution turns a stop request into
its stopping. -/
def observeExecutionControl (id : JobExecutionId) (owner : OwnerToken) (observedAt : SystemTime) :
    StagedM ExecutionControl := do
  let state ← get
  let ownerMatches := decide (state.ownerTokens[id]? = some owner)
  let stopRequested := state.stopRequests.contains id
  let execution ← require state.jobExecutions[id]? (.jobExecutionNotFound id)
  if ownerMatches && stopRequested &&
      (execution.status = .starting || execution.status = .started) then do
    let stopping ← ofLifecycle (execution.transition execution.version (.new .stopping observedAt))
    modify fun state =>
      { state with
        jobExecutions := state.jobExecutions.insert id stopping,
        executionUpdatedAt := state.executionUpdatedAt.insert id observedAt }
    pure ⟨stopping, ownerMatches, stopRequested⟩
  else pure ⟨execution, ownerMatches, stopRequested⟩

end Operators

section Holds

def placeInstanceHold (id : JobInstanceId) (actor : ActorRef) (reason : ReasonCode)
    (placedAt : SystemTime) : StagedM RetentionHold := do
  ensure ((← get).instancesById.contains id) (.jobInstanceNotFound id)
  let hold : RetentionHold := ⟨id, actor, reason, placedAt⟩
  modify fun state => { state with holds := state.holds.insert id hold }
  pure hold

def releaseInstanceHold (id : JobInstanceId) : StagedM (Option RetentionHold) := do
  let state ← get
  ensure (state.instancesById.contains id) (.jobInstanceNotFound id)
  modify fun state => { state with holds := state.holds.erase id }
  pure state.holds[id]?

/-- `append_retention_action`. -/
def appendRetentionAction (draft : RetentionRecordDraft) : StagedM RetentionRecord := do
  let state ← get
  let key := (draft.action.asStr, draft.operationId)
  ensure (!state.retentionActionKeys.contains key) .concurrentModification
  let id ← nextId state.retentionActions.maxKey?
  modify fun state =>
    { state with
      retentionActions := state.retentionActions.insert id ⟨draft, id⟩,
      retentionActionKeys := state.retentionActionKeys.insert key id }
  pure ⟨draft, id⟩

end Holds

end OxideBatch.Repository
