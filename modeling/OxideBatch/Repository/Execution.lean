import OxideBatch.Repository.Identity
import OxideBatch.Core.Fault

/-! Job and step executions: status, metadata that validates itself, and the
optimistic lifecycle transitions. -/

namespace OxideBatch.Repository

open OxideBatch.Core OxideBatch.Plan
open Std (ExtTreeMap ExtTreeSet)

inductive BatchStatus where
  | starting
  | started
  | stopping
  | stopped
  | failed
  | completed
  | abandoned
  | unknown
  deriving DecidableEq, Repr

namespace BatchStatus

/-- `BatchStatus::as_str`. -/
def asStr : BatchStatus → String
  | starting => "STARTING"
  | started => "STARTED"
  | stopping => "STOPPING"
  | stopped => "STOPPED"
  | failed => "FAILED"
  | completed => "COMPLETED"
  | abandoned => "ABANDONED"
  | unknown => "UNKNOWN"

def isActive : BatchStatus → Bool
  | starting | started | stopping => true
  | _ => false

def isFinished : BatchStatus → Bool
  | stopped | failed | completed | abandoned => true
  | _ => false

def ordinal : BatchStatus → Nat
  | starting => 0
  | started => 1
  | stopping => 2
  | stopped => 3
  | failed => 4
  | completed => 5
  | abandoned => 6
  | unknown => 7

instance : Ord BatchStatus := ⟨compareOn ordinal⟩

instance : Std.TransOrd BatchStatus := transCmp_compareOn

instance : Std.LawfulEqOrd BatchStatus := lawfulEqCmp_compareOn (by
  intro left right same
  cases left <;> cases right <;> first | rfl | cases same)

end BatchStatus

/-- UNKNOWN over FAILED over STOPPED over COMPLETED. -/
def BatchStatus.Outweighs : BatchStatus → BatchStatus → Prop
  | .unknown, .failed | .unknown, .stopped | .unknown, .completed => True
  | .failed, .stopped | .failed, .completed => True
  | .stopped, .completed => True
  | _, _ => False

/-- `ExitStatus`: a code kept apart from the status. -/
abbrev ExitStatus := ExitCode

def ExitStatus.unknown : ExitStatus := ⟨"UNKNOWN", Eq.refl true⟩

/-- The optimistic version of an execution record. -/
abbrev ExecutionVersion := Fin u64Limit

def ExecutionVersion.initial : ExecutionVersion := 0

inductive LifecycleError where
  | staleVersion (expected actual : ExecutionVersion)
  | illegalTransition (source target : BatchStatus)
  | restartRequiresNewAttempt (source : BatchStatus)
  | failedTransitionMissingFailure
  | invalidTransitionTime (source : DomainError)
  | versionExhausted (version : ExecutionVersion)
  | countExhausted
  deriving DecidableEq

def ExecutionVersion.next (version : ExecutionVersion) : Except LifecycleError ExecutionVersion :=
  if within : version.val + 1 < u64Limit then .ok ⟨version.val + 1, within⟩
  else .error (.versionExhausted version)

structure ExecutionCounts where
  read : Nat
  processed : Nat
  written : Nat
  filtered : Nat
  committed : Nat
  rolledBack : Nat
  deriving DecidableEq, Repr

namespace ExecutionCounts

def zero : ExecutionCounts := ⟨0, 0, 0, 0, 0, 0⟩

def withTerminalRollback (counts : ExecutionCounts) : Except LifecycleError ExecutionCounts :=
  match Core.checkedAdd counts.rolledBack 1 with
  | none => .error .countExhausted
  | some rolledBack => .ok { counts with rolledBack }

end ExecutionCounts

/-- Instants that are in order. -/
structure ExecutionTimestamps where
  createdAt : SystemTime
  startedAt : Option SystemTime
  endedAt : Option SystemTime
  started : ∀ instant ∈ startedAt, createdAt ≤ instant
  ended : ∀ instant ∈ endedAt, startedAt.getD createdAt ≤ instant
  deriving DecidableEq

namespace ExecutionTimestamps

def new (createdAt : SystemTime) (startedAt endedAt : Option SystemTime) :
    Except DomainError ExecutionTimestamps :=
  if ordered : (∀ instant ∈ startedAt, createdAt ≤ instant) ∧
      ∀ instant ∈ endedAt, startedAt.getD createdAt ≤ instant then
    .ok ⟨createdAt, startedAt, endedAt, ordered.1, ordered.2⟩
  else .error .invalidTimestampOrder

/-- An execution that was only created. -/
def created (createdAt : SystemTime) : ExecutionTimestamps :=
  ⟨createdAt, none, none, by simp, by simp⟩

end ExecutionTimestamps

/-- Metadata whose status agrees with its end time and its failure. -/
structure ExecutionMetadata where
  status : BatchStatus
  exitStatus : ExitStatus
  timestamps : ExecutionTimestamps
  counts : ExecutionCounts
  failure : Option FailureSummary
  active : status.isActive = true → timestamps.endedAt = none
  finished : status.isFinished = true → timestamps.endedAt ≠ none
  failed : status = .failed → failure ≠ none
  deriving DecidableEq

structure LifecycleTransition where
  target : BatchStatus
  transitionedAt : SystemTime
  failure : Option FailureSummary
  terminalRollback : Bool
  deriving DecidableEq

namespace LifecycleTransition

def new (target : BatchStatus) (transitionedAt : SystemTime) : LifecycleTransition :=
  ⟨target, transitionedAt, none, false⟩

def failed (transitionedAt : SystemTime) (failure : FailureSummary) : LifecycleTransition :=
  ⟨.failed, transitionedAt, some failure, false⟩

end LifecycleTransition

def isLegalInPlaceTransition : BatchStatus → BatchStatus → Bool
  | .starting, .started | .starting, .stopping | .starting, .failed | .starting, .unknown => true
  | .started, .stopping | .started, .stopped | .started, .failed | .started, .completed
  | .started, .unknown => true
  | .stopping, .stopped | .stopping, .failed | .stopping, .unknown => true
  | .stopped, .abandoned | .failed, .abandoned | .unknown, .abandoned => true
  | .unknown, .failed => true
  | _, _ => false

def validateTransition (source : BatchStatus) (transition : LifecycleTransition) :
    Except LifecycleError Unit :=
  if (source = .stopped ∨ source = .failed) ∧ transition.target = .starting then
    .error (.restartRequiresNewAttempt source)
  else if !isLegalInPlaceTransition source transition.target then
    .error (.illegalTransition source transition.target)
  else if transition.target = .failed ∧ transition.failure = none then
    .error .failedTransitionMissingFailure
  else .ok ()

def validateExpectedVersion (expected actual : ExecutionVersion) : Except LifecycleError Unit :=
  if expected ≠ actual then .error (.staleVersion expected actual) else .ok ()

namespace ExecutionMetadata

def new (status : BatchStatus) (exitStatus : ExitStatus) (timestamps : ExecutionTimestamps)
    (counts : ExecutionCounts) (failure : Option FailureSummary) :
    Except DomainError ExecutionMetadata :=
  if active : status.isActive = true → timestamps.endedAt = none then
    if finished : status.isFinished = true → timestamps.endedAt ≠ none then
      if failed : status = .failed → failure ≠ none then
        .ok ⟨status, exitStatus, timestamps, counts, failure, active, finished, failed⟩
      else .error .failedExecutionMissingFailure
    else .error .finishedExecutionMissingEndTime
  else .error .activeExecutionHasEndTime

/-- The metadata of an execution that starts with these counts. -/
def starting (createdAt : SystemTime) (counts : ExecutionCounts) : ExecutionMetadata :=
  ⟨.starting, .unknown, .created createdAt, counts, none, by simp [ExecutionTimestamps.created],
    by simp [BatchStatus.isFinished], by simp⟩

/-- The time before which nothing more can happen to the execution. -/
def invalidTime (metadata : ExecutionMetadata) (transitionedAt : SystemTime) : Bool :=
  transitionedAt < metadata.timestamps.startedAt.getD metadata.timestamps.createdAt ||
    metadata.timestamps.endedAt.any fun endedAt => transitionedAt < endedAt

/-- A failed transition names its missing failure; other domain errors are times. -/
def transitionError : DomainError → LifecycleError
  | .failedExecutionMissingFailure => .failedTransitionMissingFailure
  | source => .invalidTransitionTime source

def transition (metadata : ExecutionMetadata) (transition : LifecycleTransition) :
    Except LifecycleError ExecutionMetadata := do
  validateTransition metadata.status transition
  if metadata.invalidTime transition.transitionedAt then
    .error (.invalidTransitionTime .invalidTimestampOrder)
  else
    let current := metadata.timestamps
    let startedAt :=
      if transition.target = .started then some transition.transitionedAt else current.startedAt
    let endedAt :=
      if transition.target.isFinished then
        current.endedAt.or (some transition.transitionedAt)
      else none
    let timestamps ← (ExecutionTimestamps.new current.createdAt startedAt endedAt).mapError
      .invalidTransitionTime
    let counts ←
      if transition.terminalRollback then metadata.counts.withTerminalRollback
      else .ok metadata.counts
    (new transition.target metadata.exitStatus timestamps counts
      (transition.failure.or metadata.failure)).mapError transitionError

def withExitStatus (metadata : ExecutionMetadata) (exitStatus : ExitStatus) : ExecutionMetadata :=
  { metadata with exitStatus }

end ExecutionMetadata

/-- What job and step executions have in common. -/
structure Versioned where
  metadata : ExecutionMetadata
  version : ExecutionVersion
  deriving DecidableEq

namespace Versioned

/-- `transition_execution`. -/
def transition (record : Versioned) (expected : ExecutionVersion)
    (transition : LifecycleTransition) : Except LifecycleError Versioned := do
  validateExpectedVersion expected record.version
  let metadata ← record.metadata.transition transition
  let version ← record.version.next
  pure ⟨metadata, version⟩

/-- `enrich_execution_exit_status`. -/
def enrichExitStatus (record : Versioned) (expected : ExecutionVersion) (exitStatus : ExitStatus) :
    Except LifecycleError Versioned := do
  validateExpectedVersion expected record.version
  let version ← record.version.next
  pure ⟨record.metadata.withExitStatus exitStatus, version⟩

end Versioned

structure JobExecution extends Versioned where
  id : JobExecutionId
  jobInstanceId : JobInstanceId
  deriving DecidableEq

namespace JobExecution

def new (id : JobExecutionId) (jobInstanceId : JobInstanceId) (metadata : ExecutionMetadata) :
    JobExecution :=
  ⟨⟨metadata, .initial⟩, id, jobInstanceId⟩

def status (execution : JobExecution) : BatchStatus := execution.metadata.status

def transition (execution : JobExecution) (expected : ExecutionVersion)
    (transition : LifecycleTransition) : Except LifecycleError JobExecution := do
  let record ← execution.toVersioned.transition expected transition
  pure { execution with toVersioned := record }

def enrichExitStatus (execution : JobExecution) (expected : ExecutionVersion)
    (exitStatus : ExitStatus) : Except LifecycleError JobExecution := do
  let record ← execution.toVersioned.enrichExitStatus expected exitStatus
  pure { execution with toVersioned := record }

/-- `updated_at`: when the execution ended, else started, else was created. -/
def updatedAt (execution : JobExecution) : SystemTime :=
  (execution.metadata.timestamps.endedAt.or execution.metadata.timestamps.startedAt).getD
    execution.metadata.timestamps.createdAt

end JobExecution

structure StepExecution extends Versioned where
  id : StepExecutionId
  jobExecutionId : JobExecutionId
  stepName : StepName
  deriving DecidableEq

namespace StepExecution

def new (id : StepExecutionId) (jobExecutionId : JobExecutionId) (stepName : StepName)
    (metadata : ExecutionMetadata) : StepExecution :=
  ⟨⟨metadata, .initial⟩, id, jobExecutionId, stepName⟩

def status (execution : StepExecution) : BatchStatus := execution.metadata.status

def transition (execution : StepExecution) (expected : ExecutionVersion)
    (transition : LifecycleTransition) : Except LifecycleError StepExecution := do
  let record ← execution.toVersioned.transition expected transition
  pure { execution with toVersioned := record }

def enrichExitStatus (execution : StepExecution) (expected : ExecutionVersion)
    (exitStatus : ExitStatus) : Except LifecycleError StepExecution := do
  let record ← execution.toVersioned.enrichExitStatus expected exitStatus
  pure { execution with toVersioned := record }

end StepExecution

end OxideBatch.Repository
