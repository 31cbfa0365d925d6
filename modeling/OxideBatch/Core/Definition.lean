import OxideBatch.Core.Counts
import OxideBatch.Core.Fault
import OxideBatch.Core.Text

/-! The identity of a job definition and the names and tokens it is made of. -/

namespace OxideBatch.Core

section Order

/-- Tuples are ordered by their components from the left. -/
instance ordPair {α β : Type} [Ord α] [Ord β] : Ord (α × β) := lexOrd

variable {α β : Type} [Ord β] {key : α → β}

theorem transCmp_compareOn [Std.TransOrd β] : Std.TransCmp (compareOn key) := inferInstance

theorem lawfulEqCmp_compareOn [Std.LawfulEqOrd β] (injective : Function.Injective key) :
    Std.LawfulEqCmp (compareOn key) where
  compare_self := Std.ReflCmp.compare_self
  eq_of_compare same := injective (Std.LawfulEqOrd.eq_of_compare same)

end Order

abbrev JobName := Token 128

abbrev StepName := Token 128

abbrev ParameterName := Token 128

abbrev DefinitionRevision := Token 128

abbrev StateSchemaId := Token 128

/-- An application-owned revision of one executable component. -/
abbrev ComponentRevision := Token 128

abbrev ClassifierRevision := Token 128

/-- The durable namespace of one `ItemStream`. -/
abbrev ComponentStreamIdentity := Token 128

/-- 32 bytes as one number; their order is the order of the numbers. -/
abbrev Digest := Fin (2 ^ 256)

instance digestInhabited : NeZero (2 ^ 256) := ⟨by decide⟩

/-- Nanoseconds. -/
abbrev Duration := Nat

structure DefinitionIdentity where
  jobName : Option JobName
  revision : DefinitionRevision
  manifestFormat : Nat
  manifestDigest : Digest
  canonicalManifest : List UInt8
  deriving DecidableEq

abbrev StateSchemaVersion := Positive

abbrev StartLimit := Positive

/-- `StartLimit::UNRESTRICTED`. -/
def StartLimit.unrestricted : StartLimit := .numbered (u32Limit - 1)

inductive RestartPolicy where
  | restartable
  | notRestartable
  deriving DecidableEq, Repr

structure StartControls where
  startLimit : StartLimit
  allowStartIfComplete : Bool
  restartPolicy : RestartPolicy
  deriving DecidableEq

inductive InFlightPolicy where
  | finishChunk
  | rollbackChunk
  deriving DecidableEq, Repr

def ChunkDeliveryMode.manifestName : ChunkDeliveryMode → String
  | .atomicSameResource => "atomic_same_resource"
  | .atLeastOnce => "at_least_once"

/-- Restart-state schemas and delivery mode of a chunk. -/
structure ChunkRestartContract where
  checkpointSchema : StateSchemaId
  checkpointSchemaVersion : StateSchemaVersion
  contextSchema : StateSchemaId
  contextSchemaVersion : StateSchemaVersion
  deliveryMode : ChunkDeliveryMode
  inFlightPolicy : InFlightPolicy
  deriving DecidableEq

/-- The restart-relevant component revisions of a chunk. -/
structure ChunkComponentRevisions where
  reader : ComponentRevision
  processor : ComponentRevision
  writer : ComponentRevision
  checkpoint : ComponentRevision
  restart : ChunkRestartContract
  streams : Std.ExtTreeMap ComponentStreamIdentity ComponentRevision
  completionPolicy : Option ComponentRevision

inductive BackoffKind where
  | none
  | fixed
  | exponential
  deriving DecidableEq, Repr

def BackoffKind.asStr : BackoffKind → String
  | .none => "none"
  | .fixed => "fixed"
  | .exponential => "exponential"

structure BackoffPolicy where
  kind : BackoffKind
  initial : Duration
  multiplier : Nat
  maximum : Duration
  deriving DecidableEq

structure FaultAction where
  retryable : Bool
  skip : Option RollbackDisposition
  deriving DecidableEq

structure FaultRule where
  category : FailureCategory
  phase : FaultPhase
  action : FaultAction
  deriving DecidableEq

structure FaultClassifier where
  revision : ClassifierRevision
  rules : List FaultRule
  deriving DecidableEq

structure FaultPolicy where
  classifier : FaultClassifier
  retryLimit : Nat
  retryStateLimit : Nat
  skipLimit : Nat
  backoff : BackoffPolicy
  deriving DecidableEq

def FailureCategory.asStr : FailureCategory → String
  | .invalidDefinition => "invalid_definition"
  | .duplicateExecution => "duplicate_execution"
  | .illegalTransition => "illegal_transition"
  | .transientInfrastructure => "transient_infrastructure"
  | .permanentInfrastructure => "permanent_infrastructure"
  | .userComponent => "user_component"
  | .cancelled => "cancelled"
  | .serialization => "serialization"
  | .invariant => "invariant"
  | .optimisticConflict => "optimistic_conflict"
  | .timeout => "timeout"
  | .unsupportedCapability => "unsupported_capability"
  | .unknownCommit => "unknown_commit"
  | .shutdownIncomplete => "shutdown_incomplete"
  | .staleRecovered => "stale_recovered"

def FaultPhase.asStr : FaultPhase → String
  | .read => "read"
  | .process => "process"
  | .write => "write"
  | .transaction => "transaction"
  | .checkpoint => "checkpoint"
  | .listener => "listener"
  | .backoff => "backoff"

def RollbackDisposition.asStr : RollbackDisposition → String
  | .rollback => "rollback"
  | .commitSafeSkip => "commit_safe_skip"

inductive ParameterValueKind where
  | string
  | signed
  | unsigned
  | bool
  deriving DecidableEq, Repr

def ParameterValueKind.asStr : ParameterValueKind → String
  | .string => "STRING"
  | .signed => "I64"
  | .unsigned => "U64"
  | .bool => "BOOL"

end OxideBatch.Core
