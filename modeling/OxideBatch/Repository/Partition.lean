import Mathlib
import OxideBatch.Repository.Steps

/-! Step partitions: plans, worker assignment, completion, and aggregation into the
parent step. -/

namespace OxideBatch.Repository

open OxideBatch.Core OxideBatch.Plan
open Std (ExtTreeMap ExtTreeSet)

section Mutation

namespace StepPartition

def starting (id : StepPartitionId) (stepExecutionId : StepExecutionId) (ordinal : Nat)
    (key : PartitionKey) (context : ExecutionContext) : StepPartition :=
  ⟨id, stepExecutionId, none, key, ordinal, .starting, .unknown, .zero, context, .initial⟩

end StepPartition

inductive PartitionMutationError where
  | staleVersion (expected actual : ExecutionVersion)
  | invalidState (status : BatchStatus)
  | versionExhausted
  deriving DecidableEq

def mapPartitionMutation (id : StepPartitionId) : PartitionMutationError → RepositoryError
  | .staleVersion expected actual => .lifecycle (.staleVersion expected actual)
  | .invalidState status => .partitionUpdateNotAllowed id status
  | .versionExhausted => .partitionStateCorrupt

namespace StepPartition

def ensureVersion (partition : StepPartition) (expected : ExecutionVersion) :
    Except PartitionMutationError Unit :=
  if expected ≠ partition.version then .error (.staleVersion expected partition.version)
  else .ok ()

def nextVersion (partition : StepPartition) : Except PartitionMutationError ExecutionVersion :=
  partition.version.next.mapError fun _ => .versionExhausted

def assign (partition : StepPartition) (expected : ExecutionVersion) (worker : StepExecutionId) :
    Except PartitionMutationError StepPartition := do
  partition.ensureVersion expected
  let first := partition.status = .starting && partition.workerStepExecutionId.isNone
  let retried := (partition.status = .failed || partition.status = .stopped) &&
    partition.workerStepExecutionId.isSome
  if !first && !retried then .error (.invalidState partition.status)
  else
    let version ← partition.nextVersion
    pure
      { partition with
        workerStepExecutionId := some worker
        status := .started
        exitStatus := .unknown
        counts := .zero
        version }

end StepPartition

structure PartitionResult where
  status : BatchStatus
  exitStatus : ExitStatus
  counts : ExecutionCounts
  deriving DecidableEq

/-- Whether a child can end in this status. -/
def endsPartition : BatchStatus → Bool
  | .completed | .failed | .stopped | .unknown => true
  | _ => false

/-- Every counter fits a signed 64-bit column. -/
def storableCounts (counts : ExecutionCounts) : Bool :=
  [counts.read, counts.processed, counts.written, counts.filtered, counts.committed,
    counts.rolledBack].all (· < 2 ^ 63)

/-- `PartitionResult::from_worker`. -/
def PartitionResult.fromWorker (worker : StepExecution) : Option PartitionResult :=
  if endsPartition worker.status && storableCounts worker.metadata.counts then
    some ⟨worker.status, worker.metadata.exitStatus, worker.metadata.counts⟩
  else none

namespace StepPartition

def complete (partition : StepPartition) (expected : ExecutionVersion) (result : PartitionResult) :
    Except PartitionMutationError StepPartition := do
  partition.ensureVersion expected
  if partition.status ≠ .started ∨ partition.workerStepExecutionId = none then
    .error (.invalidState partition.status)
  else
    let version ← partition.nextVersion
    pure
      { partition with
        status := result.status
        exitStatus := result.exitStatus
        counts := result.counts
        version }

end StepPartition

end Mutation

section Aggregate

inductive PartitionAggregationError where
  | emptyPlan
  | planTooLarge (max : Nat)
  | duplicateKey
  | incomplete (status : BatchStatus)
  | countExhausted
  deriving DecidableEq

def mapPartitionAggregation (stepExecutionId : StepExecutionId) :
    PartitionAggregationError → RepositoryError
  | .incomplete status => .partitionAggregationIncomplete stepExecutionId status
  | .countExhausted => .lifecycle .countExhausted
  | .emptyPlan | .planTooLarge _ | .duplicateKey => .partitionStateCorrupt

structure PartitionAggregate where
  status : BatchStatus
  exitStatus : ExitStatus
  counts : ExecutionCounts
  selectedWorker : StepExecutionId
  deriving DecidableEq

def partitionSeverity : BatchStatus → Nat
  | .completed => 0
  | .stopped => 1
  | .failed => 2
  | .unknown => 3
  | _ => 4

def checkedSumCounts (left right : ExecutionCounts) :
    Except PartitionAggregationError ExecutionCounts :=
  let sum : Option ExecutionCounts := do
    let read ← Core.checkedAdd left.read right.read
    let processed ← Core.checkedAdd left.processed right.processed
    let written ← Core.checkedAdd left.written right.written
    let filtered ← Core.checkedAdd left.filtered right.filtered
    let committed ← Core.checkedAdd left.committed right.committed
    let rolledBack ← Core.checkedAdd left.rolledBack right.rolledBack
    pure ⟨read, processed, written, filtered, committed, rolledBack⟩
  match sum.filter storableCounts with
  | some counts => .ok counts
  | none => .error .countExhausted

/-- Partitions by key. -/
def sortPartitions (partitions : List StepPartition) : List StepPartition :=
  partitions.insertionSort fun left right => left.key.value ≤ right.key.value

def aggregateStep (held : BatchStatus × ExecutionCounts) (partition : StepPartition) :
    Except PartitionAggregationError (BatchStatus × ExecutionCounts) := do
  if partition.workerStepExecutionId.isNone || !endsPartition partition.status then
    .error (.incomplete partition.status)
  else
    let status :=
      if partitionSeverity held.1 < partitionSeverity partition.status then partition.status
      else held.1
    let counts ← checkedSumCounts held.2 partition.counts
    pure (status, counts)

/-- `aggregate_step_partitions` of the partition values. -/
def aggregatePartitions (partitions : List StepPartition) :
    Except PartitionAggregationError PartitionAggregate := do
  if partitions.isEmpty then .error .emptyPlan
  else if maxPartitions < partitions.length then .error (.planTooLarge maxPartitions)
  else
    let ordered := sortPartitions partitions
    if (ordered.zip ordered.tail).any fun pair => pair.1.key = pair.2.key then .error .duplicateKey
    else
      let (status, counts) ← ordered.foldlM aggregateStep (.completed, .zero)
      match ordered.find? (·.status = status) with
      | none => .error (.incomplete status)
      | some selected =>
        match selected.workerStepExecutionId with
        | none => .error (.incomplete status)
        | some worker => pure ⟨status, selected.exitStatus, counts, worker⟩

/-- The parent step behind its partitions. -/
def aggregatePartitionParent (parent : StepExecution) (expected : ExecutionVersion)
    (aggregate : PartitionAggregate) (transitionedAt : SystemTime)
    (failure : Option FailureSummary) : Except RepositoryError StepExecution := do
  let transition ←
    if aggregate.status = .failed then do
      let failure ← require failure (.lifecycle .failedTransitionMissingFailure)
      pure (LifecycleTransition.failed transitionedAt failure)
    else pure (LifecycleTransition.new aggregate.status transitionedAt)
  let moved ← ofLifecycle (parent.transition expected transition)
  let metadata ← (ExecutionMetadata.new aggregate.status aggregate.exitStatus
    moved.metadata.timestamps aggregate.counts moved.metadata.failure).mapError .domain
  pure { moved with metadata }

end Aggregate

section Plans

/-- Stores a partition under the next free identifier. -/
def storePartition (build : StepPartitionId → StepPartition) : StagedM StepPartition := do
  let id ← nextId (← get).stepPartitions.maxKey?
  modify fun state => { state with stepPartitions := state.stepPartitions.insert id (build id) }
  pure (build id)

/-- Lists the partitions of a plan under their step. -/
def listPlan (stepExecutionId : StepExecutionId) (partitions : List StepPartition) : StagedM Unit :=
  modify fun state =>
    { state with
      stepPartitionsByStep :=
        state.stepPartitionsByStep.insert stepExecutionId (partitions.map (·.id)) }

def createStepPartitionPlan (stepExecutionId : StepExecutionId) (entries : List PartitionPlanEntry) :
    StagedM (List StepPartition) := do
  let state ← get
  let parent ← require state.stepExecutions[stepExecutionId]? (.stepExecutionNotFound stepExecutionId)
  ensure (parent.status = .starting || parent.status = .started)
    (.partitionParentNotActive stepExecutionId parent.status)
  ensure (!entries.isEmpty) .emptyPartitionPlan
  ensure (entries.length ≤ maxPartitions) (.partitionPlanTooLarge maxPartitions)
  ensure (!state.stepPartitionsByStep.contains stepExecutionId)
    (.partitionPlanExists stepExecutionId)
  ensure (decide ((entries.map (·.key)).Nodup)) .duplicatePartitionKey
  let partitions ← entries.zipIdx.mapM fun entry =>
    storePartition fun id => .starting id stepExecutionId (entry.2 + 1) entry.1.key entry.1.context
  listPlan stepExecutionId partitions
  pure partitions

/-- `step_partition_plan`: the partitions of a step by key. -/
def stepPartitionPlan (state : MemoryState) (stepExecutionId : StepExecutionId) :
    Except RepositoryError (List StepPartition) := do
  ensure (state.stepExecutions.contains stepExecutionId) (.stepExecutionNotFound stepExecutionId)
  let partitions ← (state.stepPartitionsByStep[stepExecutionId]?.getD []).mapM fun id =>
    require state.stepPartitions[id]? .partitionStateCorrupt
  pure (sortPartitions partitions)

/-- A partition of a restarted plan: a completed one is kept with its worker. -/
def restartPartition (target : StepExecutionId) (source : StepPartition) :
    StagedM StepPartition := do
  if source.status = .completed then do
    ensure source.workerStepExecutionId.isSome .partitionStateCorrupt
    storePartition fun id =>
      { source with
        id
        stepExecutionId := target
        version := .initial }
  else do
    ensure (source.context.encodedLen ≤ maxPartitionContextBytes) .partitionStateCorrupt
    storePartition fun id => .starting id target source.ordinal source.key source.context

def restartStepPartitionPlan (source target : StepExecutionId) : StagedM (List StepPartition) := do
  let state ← get
  ensure (!state.stepPartitionsByStep.contains target) (.partitionPlanExists target)
  let sourceParent ← require state.stepExecutions[source]? (.stepExecutionNotFound source)
  let sourceJob ← require state.jobExecutions[sourceParent.jobExecutionId]? .partitionStateCorrupt
  ensure (sourceJob.status = .failed || sourceJob.status = .stopped) .partitionStateCorrupt
  let targetParent ← require state.stepExecutions[target]? (.stepExecutionNotFound target)
  ensure (targetParent.status = .starting || targetParent.status = .started)
    (.partitionParentNotActive target targetParent.status)
  let sourceIds ← require state.stepPartitionsByStep[source]? .partitionStateCorrupt
  let copied ← sourceIds.mapM fun sourceId => do
    let partition ← require (← get).stepPartitions[sourceId]? .partitionStateCorrupt
    restartPartition target partition
  listPlan target copied
  pure copied

/-- `assign_step_partition`; `createdPlans` are the plans of this unit of work. -/
def assignStepPartition (createdPlans : ExtTreeSet StepExecutionId) (id : StepPartitionId)
    (expected : ExecutionVersion) (worker : StepExecutionId) : StagedM StepPartition := do
  let state ← get
  let partition ← require state.stepPartitions[id]? (.stepPartitionNotFound id)
  ensure (!createdPlans.contains partition.stepExecutionId)
    (.partitionPlanNotCommitted partition.stepExecutionId)
  let parent ← require state.stepExecutions[partition.stepExecutionId]? .partitionStateCorrupt
  ensure (parent.status = .started) (.partitionParentNotActive parent.id parent.status)
  let assigned ← (partition.assign expected worker).mapError (mapPartitionMutation id)
  let workerStep ← require state.stepExecutions[worker]? (.stepExecutionNotFound worker)
  ensure (partition.stepExecutionId ≠ worker && parent.jobExecutionId = workerStep.jobExecutionId)
    (.partitionWorkerMismatch id worker)
  ensure (!(state.stepPartitions.toList.any fun entry =>
    entry.2.workerStepExecutionId = some worker)) (.partitionWorkerAlreadyAssigned worker)
  modify fun state => { state with stepPartitions := state.stepPartitions.insert id assigned }
  pure assigned

def completeStepPartition (id : StepPartitionId) (expected : ExecutionVersion)
    (worker : StepExecutionId) : StagedM StepPartition := do
  let state ← get
  let partition ← require state.stepPartitions[id]? (.stepPartitionNotFound id)
  let parent ← require state.stepExecutions[partition.stepExecutionId]? .partitionStateCorrupt
  ensure (parent.status = .started || parent.status = .stopping)
    (.partitionParentNotActive parent.id parent.status)
  ensure (partition.workerStepExecutionId = some worker) (.partitionWorkerStale id worker)
  let workerStep ← require state.stepExecutions[worker]? (.stepExecutionNotFound worker)
  ensure (workerStep.jobExecutionId = parent.jobExecutionId) (.partitionWorkerMismatch id worker)
  let result ← require (PartitionResult.fromWorker workerStep)
    (.partitionAggregationIncomplete parent.id workerStep.status)
  let completed ← (partition.complete expected result).mapError (mapPartitionMutation id)
  modify fun state => { state with stepPartitions := state.stepPartitions.insert id completed }
  pure completed

/-- Each partition still agrees with its worker. -/
def checkAggregatedWorker (state : MemoryState) (stepExecutionId : StepExecutionId)
    (partition : StepPartition) : Except RepositoryError Unit := do
  let worker ← require partition.workerStepExecutionId
    (.partitionAggregationIncomplete stepExecutionId partition.status)
  let step ← require state.stepExecutions[worker]? .partitionStateCorrupt
  ensure (step.status = partition.status && step.metadata.exitStatus = partition.exitStatus &&
    step.metadata.counts = partition.counts) .partitionStateCorrupt

/-- Whether the parent already is the aggregate. -/
def alreadyAggregated (parent : StepExecution) (expected : ExecutionVersion)
    (aggregate : PartitionAggregate) (failure : Option FailureSummary) : Bool :=
  Core.checkedAdd expected.val 1 = some parent.version.val && parent.status = aggregate.status &&
    parent.metadata.exitStatus = aggregate.exitStatus &&
    parent.metadata.counts = aggregate.counts && parent.metadata.failure = failure

/-- `aggregate_step_partitions`: the parent, and whether it was aggregated now. -/
def aggregateStepPartitions (stepExecutionId : StepExecutionId) (expected : ExecutionVersion)
    (transitionedAt : SystemTime) : StagedM (StepExecution × Bool) := do
  let state ← get
  let partitions ← stepPartitionPlan state stepExecutionId
  let aggregate ← (aggregatePartitions partitions).mapError (mapPartitionAggregation stepExecutionId)
  partitions.forM fun partition => checkAggregatedWorker state stepExecutionId partition
  let parent ← require state.stepExecutions[stepExecutionId]? (.stepExecutionNotFound stepExecutionId)
  let selected ← require state.stepExecutions[aggregate.selectedWorker]? .partitionStateCorrupt
  let failure := selected.metadata.failure
  if alreadyAggregated parent expected aggregate failure then pure (parent, false)
  else do
    ensure (parent.status = .started || parent.status = .stopping)
      (.partitionParentNotActive stepExecutionId parent.status)
    let aggregated ← aggregatePartitionParent parent expected aggregate transitionedAt failure
    modify fun state =>
      { state with stepExecutions := state.stepExecutions.insert stepExecutionId aggregated }
    pure (aggregated, true)

end Plans

end OxideBatch.Repository
