import OxideBatch.Repository.KeyDigests
import OxideBatch.Repository.State
import OxideBatch.Scope.Live
import OxideBatch.Lib.Framing

/-! The vocabulary of the flow runtime: outcomes, failures, and errors of a launch, and
the digests over durable step states. -/

namespace OxideBatch.Flow

open OxideBatch.Core OxideBatch.Plan OxideBatch.Repository
open OxideBatch.Lib (beBytes textBytes)

section Outcomes

inductive TaskletFailure where
  | error
  | panic
  | listenerError
  | listenerPanic
  deriving DecidableEq, Repr

end Outcomes

section Exits

def exitFailed : ExitStatus := ⟨"FAILED", Eq.refl true⟩

def exitStopped : ExitStatus := ⟨"STOPPED", Eq.refl true⟩

end Exits

section Failures

inductive ListenerFailureKind where
  | error
  | panic
  deriving DecidableEq, Repr

inductive ListenerPhase where
  | beforeJob
  | beforeStep
  | afterStep
  | afterJob
  deriving DecidableEq, Repr

structure ListenerFailure where
  phase : ListenerPhase
  registrationIndex : Nat
  kind : ListenerFailureKind
  summary : FailureSummary
  deriving DecidableEq

inductive RepeatCallbackFailureKind where
  | error
  | panic
  deriving DecidableEq, Repr

inductive RepeatCallbackPhase where
  | before
  | policy
  | after
  deriving DecidableEq, Repr

structure RepeatCallbackFailure where
  repeatId : RepeatId
  interceptorId : Option (Token 128)
  phase : RepeatCallbackPhase
  kind : RepeatCallbackFailureKind
  deriving DecidableEq

inductive RepeatFailureCause where
  | body (failure : TaskletFailure)
  | callback (failure : RepeatCallbackFailure)
  deriving DecidableEq

/-- The first failure of a repeat iteration, and the callbacks that failed behind it. -/
structure RepeatFailure where
  primary : RepeatFailureCause
  secondary : List RepeatCallbackFailure
  secondaryTruncated : Bool
  deriving DecidableEq

inductive NestedJobMappingFailure where
  | missingSource
  | sourceUnavailable
  | sourceSchemaMismatch
  | sourceTypeMismatch
  | coercionFailed
  | invalidValue
  deriving DecidableEq, Repr

inductive ScopeResolutionFailure where
  | missingSource
  | sourceUnavailable
  | sourceSchemaMismatch
  | sourceTypeMismatch
  | coercionFailed
  | invalidValue
  | provenanceMismatch
  deriving DecidableEq, Repr

/-- Why a flow ends as failed. -/
inductive FlowFailure where
  | tasklet (failure : TaskletFailure)
  | repeat (node : NodeId) (failure : RepeatFailure)
  | listener (failure : TaskletFailure)
  | deciderError
  | deciderPanic
  | partitionerError
  | partitionerPanic
  | partitionFactoryPanic
  | nestedJobMapping (node : NodeId) (failure : NestedJobMappingFailure)
  | nestedJobChildFailed (node : NodeId)
  | customLeafState (node : NodeId)
  | unmappedExitOutcome (node : NodeId) (code : ExitCode)
  | startLimitExceeded (node : NodeId) (limit : Nat)
  | failTerminal
  | scopedCleanup (scope : ScopeKind) (failures : Nat)
  deriving DecidableEq

/-- The errors of the executable assembly that a run can still meet. -/
inductive FlowJobError where
  | unsupportedManifest (format : Nat)
  | missingBinding (node : NodeId)
  | missingRepeatBinding (node : NodeId)
  deriving DecidableEq

/-- The errors of a launch. A commit without a knowable outcome and an unavailable
store are errors of the connection, which the tables themselves never answer. -/
inductive FlowRuntimeError where
  | job (error : FlowJobError)
  | repository (error : RepositoryError)
  | commitOutcomeUnknown
  | unavailable
  | decisionSequenceExhausted
  | countExhausted
  | shuttingDown
  | nonRestartableJob (instanceId : JobInstanceId)
  | nonRestartableStep (instanceId : JobInstanceId) (nodeId : NodeId)
  | unresolvedPartitionOutcome (stepExecutionId : StepExecutionId)
  | partitionerRejected (panicked : Bool)
  | scopeResolution (scope : ScopeKind) (component : ScopedComponentId)
      (failure : ScopeResolutionFailure)
  | scopeConstruction (scope : ScopeKind) (failure : Scope.ScopeBuildFailureKind)
      (component : Option ScopedComponentId) (cleanupFailures : Nat)
  deriving DecidableEq

end Failures

section Runs

/-- What a scope leaves when it ends. -/
structure ScopeRun where
  status : BatchStatus
  exitStatus : ExitStatus
  failure : Option FailureSummary
  flowFailure : Option FlowFailure
  stepExecutions : List StepExecution
  decisions : List FlowDecision
  states : List FlowStepState
  listenerFailures : List ListenerFailure

end Runs

section Digests

/-- The encoders behind the digests of a flow. -/
structure FlowDigests where
  sha256 : List UInt8 → Digest
  contextJson : ExecutionContext → Option (List UInt8)

variable (digests : FlowDigests)

/-- `hash_field`: the length, then the bytes. -/
def hashField (value : List UInt8) : List UInt8 := beBytes 8 value.length ++ value

def hashCounts (counts : ExecutionCounts) : List UInt8 :=
  [counts.read, counts.processed, counts.written, counts.filtered, counts.committed,
    counts.rolledBack].flatMap (beBytes 8)

def stepInputDigest (fingerprint : Digest) (state : FlowStepState) : Digest :=
  digests.sha256 <|
    textBytes "oxide-batch.flow-step-input.v1\x00" ++ digestBytes fingerprint ++
      hashField (textBytes state.nodeId.value) ++ beBytes 8 state.execution.id.get ++
      beBytes 8 state.execution.version.val ++
      hashField (textBytes state.execution.status.asStr) ++
      hashField (textBytes state.execution.metadata.exitStatus.value) ++
      hashCounts state.execution.metadata.counts ++
      match state.context.bind digests.contextJson with
      | some bytes => digestBytes (digests.sha256 bytes)
      | none => []

end Digests

end OxideBatch.Flow
