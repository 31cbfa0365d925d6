import OxideBatch.Repository.Records
import OxideBatch.Lib.Tables

/-! `MemoryState`: the tables of the in-memory repository and their records. -/

namespace OxideBatch.Repository

open OxideBatch.Core OxideBatch.Plan
open Std (ExtTreeMap ExtTreeSet)

def maxPartitions : Nat := 1024

def maxPartitionContextBytes : Nat := 4 * 1024

def maxLateBoundInputs : Nat := 64

section Records

/-- `PartitionKey`: text of 1 to 128 bytes. -/
structure PartitionKey where
  value : String
  valid : value ≠ "" ∧ value.utf8ByteSize ≤ 128
  deriving DecidableEq

structure PartitionPlanEntry where
  key : PartitionKey
  context : ExecutionContext
  bounded : context.encodedLen ≤ maxPartitionContextBytes
  deriving DecidableEq

structure StepPartition where
  id : StepPartitionId
  stepExecutionId : StepExecutionId
  workerStepExecutionId : Option StepExecutionId
  key : PartitionKey
  ordinal : Nat
  status : BatchStatus
  exitStatus : ExitStatus
  counts : ExecutionCounts
  context : ExecutionContext
  version : ExecutionVersion
  deriving DecidableEq

structure RecoveryDecision where
  id : RecoveryDecisionId
  jobExecutionId : JobExecutionId
  executionVersion : ExecutionVersion
  priorStatus : BatchStatus
  resultingStatus : BatchStatus
  reasonCode : String
  operatorReference : String
  evidenceDigest : Digest
  decidedAt : SystemTime
  deriving DecidableEq

inductive RecoveryDisposition where
  | markFailed (failure : FailureSummary)
  | abandon
  deriving DecidableEq

namespace RecoveryDisposition

def resultingStatus : RecoveryDisposition → BatchStatus
  | markFailed _ => .failed
  | abandon => .abandoned

def failure : RecoveryDisposition → Option FailureSummary
  | markFailed failure => some failure
  | abandon => none

end RecoveryDisposition

structure RecoveryRequest where
  expectedVersion : ExecutionVersion
  disposition : RecoveryDisposition
  reasonCode : String
  operatorReference : String
  evidenceDigest : Digest
  deriving DecidableEq

inductive OperatorAction where
  | launch
  | restart
  | fork
  | stop
  | abandon
  | recover
  deriving DecidableEq

def OperatorAction.asStr : OperatorAction → String
  | launch => "LAUNCH"
  | restart => "RESTART"
  | fork => "FORK"
  | stop => "STOP"
  | abandon => "ABANDON"
  | recover => "RECOVER"

inductive OperatorOutcomeClass where
  | applied
  | replayed
  | rejected
  deriving DecidableEq

inductive OperatorRejection where
  | optimisticConflict (current : ExecutionVersion)
  | invalidState (status : BatchStatus)
  | instanceCompleted
  | instanceAbandoned
  | executionAlreadyActive (executionId : JobExecutionId) (status : BatchStatus)
  | incompatibleDefinition
  | restartWithoutPriorAttempt
  | startLimitExceeded
  | unresolvedRecoveryRequired
  | executionNotFound
  | instanceNotFound
  | unsupportedAction
  deriving DecidableEq

structure OperatorRecordDraft where
  action : OperatorAction
  operationId : OperationId
  actor : ActorRef
  reason : Option ReasonCode
  digest : Digest
  jobInstanceId : Option JobInstanceId
  jobExecutionId : Option JobExecutionId
  observedVersion : Option ExecutionVersion
  priorStatus : Option BatchStatus
  resultStatus : Option BatchStatus
  outcome : OperatorOutcomeClass
  rejection : Option OperatorRejection
  requestedAt : SystemTime
  deriving DecidableEq

structure OperatorRecord extends OperatorRecordDraft where
  id : OperatorRequestId
  deriving DecidableEq

structure RetentionHold where
  jobInstanceId : JobInstanceId
  actor : ActorRef
  reason : ReasonCode
  placedAt : SystemTime
  deriving DecidableEq

inductive RetentionAction where
  | hold
  | releaseHold
  | applyPurge
  deriving DecidableEq

def RetentionAction.asStr : RetentionAction → String
  | hold => "HOLD"
  | releaseHold => "RELEASE_HOLD"
  | applyPurge => "APPLY_PURGE"

inductive RetentionOutcome where
  | applied
  | replayed
  | rejected
  deriving DecidableEq

/-- How many rows a purge removes from each table. -/
structure PurgeCounts where
  flowDecisions : Nat
  recoveryDecisions : Nat
  operatorRequests : Nat
  stepPartitions : Nat
  stepExecutions : Nat
  jobExecutions : Nat
  jobInstances : Nat
  deriving DecidableEq, Repr

structure RetentionRecordDraft where
  action : RetentionAction
  operationId : OperationId
  actor : ActorRef
  reason : ReasonCode
  jobInstanceId : Option JobInstanceId
  planDigest : Option Digest
  counts : PurgeCounts
  batchBound : Option Nat
  outcome : RetentionOutcome
  appliedAt : SystemTime
  deriving DecidableEq

structure RetentionRecord extends RetentionRecordDraft where
  id : RetentionActionId
  deriving DecidableEq

end Records

abbrev DefinitionKey := JobName × DefinitionRevision

structure MemoryState where
  revision : Nat
  instancesByKey : ExtTreeMap JobInstanceKey JobInstanceId
  instancesById : ExtTreeMap JobInstanceId JobInstance
  jobExecutions : ExtTreeMap JobExecutionId JobExecution
  jobExecutionsByInstance : ExtTreeMap JobInstanceId (List JobExecutionId)
  executionAttempts : ExtTreeMap JobExecutionId Nat
  nextExecutionAttemptByInstance : ExtTreeMap JobInstanceId Nat
  jobParameters : ExtTreeMap JobExecutionId JobParameters
  scopeResolutionProvenance : ExtTreeMap ScopeKey ScopeResolutionProvenance
  scopeExplorerOrder : ExtTreeMap ScopeKey Nat
  nestedJobLinks : ExtTreeMap (JobExecutionId × NodeId) NestedJobLink
  nestedJobLinksByInstance : ExtTreeMap (JobInstanceId × NodeId) (List JobExecutionId)
  stepExecutions : ExtTreeMap StepExecutionId StepExecution
  stepExecutionsByJob : ExtTreeMap JobExecutionId (List StepExecutionId)
  stepLogicalIds : ExtTreeMap StepExecutionId NodeId
  stepContexts : ExtTreeMap StepExecutionId ExecutionContext
  stepPartitions : ExtTreeMap StepPartitionId StepPartition
  stepPartitionsByStep : ExtTreeMap StepExecutionId (List StepPartitionId)
  flowDecisions : ExtTreeMap FlowDecisionId FlowDecision
  flowDecisionsByJob : ExtTreeMap JobExecutionId (List FlowDecisionId)
  repeatExecutions : ExtTreeMap (StepExecutionId × RepeatId) RepeatExecution
  recoveryDecisions : ExtTreeMap JobExecutionId (List RecoveryDecision)
  definitions : ExtTreeMap DefinitionKey DefinitionIdentity
  definitionRegistry : ExtTreeMap DefinitionKey DefinitionRegistration
  definitionExplorerOrder : ExtTreeMap DefinitionKey Nat
  executionDefinitions : ExtTreeMap JobExecutionId DefinitionIdentity
  definitionUpgrades : ExtTreeMap (JobName × Digest × Digest) DefinitionUpgrade
  forkLineages : ExtTreeMap OperationId ForkLineage
  forkJobContexts : ExtTreeMap JobExecutionId ExecutionContext
  upgradeSources : ExtTreeMap JobExecutionId JobExecutionId
  upgradeSeeds : ExtTreeMap (JobExecutionId × NodeId) MemoryUpgradeNodeSeed
  jobNameOrder : ExtTreeMap JobName Nat
  instanceCreatedAt : ExtTreeMap JobInstanceId SystemTime
  executionUpdatedAt : ExtTreeMap JobExecutionId SystemTime
  holds : ExtTreeMap JobInstanceId RetentionHold
  stopRequests : ExtTreeMap JobExecutionId SystemTime
  ownerTokens : ExtTreeMap JobExecutionId OwnerToken
  operatorRequests : ExtTreeMap OperatorRequestId OperatorRecord
  operatorRequestKeys : ExtTreeMap (String × OperationId) OperatorRequestId
  retentionActions : ExtTreeMap RetentionActionId RetentionRecord
  retentionActionKeys : ExtTreeMap (String × OperationId) RetentionActionId

def MemoryState.empty : MemoryState where
  revision := 0
  instancesByKey := ∅
  instancesById := ∅
  jobExecutions := ∅
  jobExecutionsByInstance := ∅
  executionAttempts := ∅
  nextExecutionAttemptByInstance := ∅
  jobParameters := ∅
  scopeResolutionProvenance := ∅
  scopeExplorerOrder := ∅
  nestedJobLinks := ∅
  nestedJobLinksByInstance := ∅
  stepExecutions := ∅
  stepExecutionsByJob := ∅
  stepLogicalIds := ∅
  stepContexts := ∅
  stepPartitions := ∅
  stepPartitionsByStep := ∅
  flowDecisions := ∅
  flowDecisionsByJob := ∅
  repeatExecutions := ∅
  recoveryDecisions := ∅
  definitions := ∅
  definitionRegistry := ∅
  definitionExplorerOrder := ∅
  executionDefinitions := ∅
  definitionUpgrades := ∅
  forkLineages := ∅
  forkJobContexts := ∅
  upgradeSources := ∅
  upgradeSeeds := ∅
  jobNameOrder := ∅
  instanceCreatedAt := ∅
  executionUpdatedAt := ∅
  holds := ∅
  stopRequests := ∅
  ownerTokens := ∅
  operatorRequests := ∅
  operatorRequestKeys := ∅
  retentionActions := ∅
  retentionActionKeys := ∅

/-- The errors of the in-memory repository. -/
inductive RepositoryError where
  | jobInstanceNotFound (id : JobInstanceId)
  | jobExecutionNotFound (id : JobExecutionId)
  | stepExecutionNotFound (id : StepExecutionId)
  | stepPartitionNotFound (id : StepPartitionId)
  | emptyPartitionPlan
  | partitionPlanTooLarge (max : Nat)
  | duplicatePartitionKey
  | partitionPlanExists (stepExecutionId : StepExecutionId)
  | partitionPlanNotCommitted (stepExecutionId : StepExecutionId)
  | partitionUpdateNotAllowed (id : StepPartitionId) (status : BatchStatus)
  | partitionWorkerMismatch (partitionId : StepPartitionId) (worker : StepExecutionId)
  | partitionWorkerAlreadyAssigned (worker : StepExecutionId)
  | partitionWorkerStale (partitionId : StepPartitionId) (worker : StepExecutionId)
  | partitionParentNotActive (stepExecutionId : StepExecutionId) (status : BatchStatus)
  | partitionAggregationIncomplete (stepExecutionId : StepExecutionId) (status : BatchStatus)
  | partitionStateCorrupt
  | duplicateIdentifier (kind : IdentifierKind) (value : Nat)
  | completedInstance (id : JobInstanceId)
  | abandonedInstance (id : JobInstanceId)
  | executionAlreadyActive (instanceId : JobInstanceId) (executionId : JobExecutionId)
      (status : BatchStatus)
  | definitionDrift (jobName : JobName) (revision : DefinitionRevision)
  | definitionArtifactDrift (jobName : JobName) (revision : DefinitionRevision)
  | forkOperationConflict
  | forkStateCorrupt
  | definitionJobMismatch (expected actual : JobName)
  | incompatibleDefinition (instanceId : JobInstanceId)
  | definitionUpgradeFailed
  | definitionUpgradeConflict (jobName : JobName)
  | startLimitExceeded (instanceId : JobInstanceId) (nodeId : NodeId) (limit : Nat)
  | flowStateCorrupt
  | nestedJobStateCorrupt
  | scopeResolutionStateCorrupt
  | repeatStateCorrupt
  | repeatOrdinalConflict (expected actual : Nat)
  | repeatAlreadyComplete
  | nestedJobChildUnresolved (childExecutionId : JobExecutionId) (status : BatchStatus)
  | recoveryNotAllowed (id : JobExecutionId) (status : BatchStatus)
  | executionOwned (id : JobExecutionId)
  | executionOwnershipNotAllowed (id : JobExecutionId) (status : BatchStatus)
  | domain (error : DomainError)
  | identifier (kind : IdentifierKind)
  | lifecycle (error : LifecycleError)
  | retentionPlanStale
  | concurrentModification
  deriving DecidableEq

/-- One unit of work: its snapshot with the staged changes. -/
structure UnitOfWork where
  baseRevision : Nat
  staged : MemoryState
  createdPartitionPlans : ExtTreeSet StepExecutionId

/-- `begin`. -/
def MemoryState.beginUnit (state : MemoryState) : UnitOfWork :=
  ⟨state.revision, state, ∅⟩

/-- The operations on the staged tables of a unit of work. An operation that fails
ends its unit: its caller passes the error on and drops the unit, which rolls it
back. -/
abbrev StagedM := StateT MemoryState (Except RepositoryError)

/-- The answers of the clock and the identifier generator to one operation; `none`
is an exhausted generator. -/
structure Supply where
  jobInstanceId : Option JobInstanceId
  jobExecutionId : Option JobExecutionId
  stepExecutionId : Option StepExecutionId
  instanceCreatedAt : SystemTime
  now : SystemTime

/-- The value, or the error in its place. -/
def require (value : Option α) (error : RepositoryError) : Except RepositoryError α :=
  match value with
  | some value => .ok value
  | none => .error error

/-- Fails with the error unless the condition holds. -/
def ensure (condition : Bool) (error : RepositoryError) : Except RepositoryError Unit :=
  if condition then .ok () else .error error

/-- The identifier behind the greatest one in use. -/
def nextId {kind : IdentifierKind} (last : Option (Id kind)) : Except RepositoryError (Id kind) :=
  (Id.following last).mapError .domain

/-- One more than the greatest order number; `saturating_add`. -/
def nextOrder {Key : Type} [Ord Key] [Std.TransOrd Key] (orders : ExtTreeMap Key Nat) : Nat :=
  match orders.toList.map (·.2) with
  | [] => 1
  | first :: rest => saturatingAdd (rest.foldl max first) 1

namespace MemoryState

def registerJobName (state : MemoryState) (jobName : JobName) : MemoryState :=
  if state.jobNameOrder.contains jobName then state
  else { state with jobNameOrder := state.jobNameOrder.insert jobName (nextOrder state.jobNameOrder) }

/-- The executions of an instance that exist, in order. -/
def executionsOf (state : MemoryState) (id : JobInstanceId) : List JobExecution :=
  (state.jobExecutionsByInstance[id]?.getD []).filterMap fun id => state.jobExecutions[id]?

end MemoryState

end OxideBatch.Repository
