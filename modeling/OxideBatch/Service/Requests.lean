import OxideBatch.Service.Retention
import OxideBatch.Lib.Hex
import OxideBatch.Repository.KeyDigests

/-! The requests of operators and the evidence of recoveries, and the canonical bytes
behind their digests. -/

namespace OxideBatch.Service

open OxideBatch.Core OxideBatch.Plan OxideBatch.Repository OxideBatch.Lib

section Arguments

/-- `RecoveryDirective`: a decision with the failure it states. -/
inductive RecoveryDirective where
  | markFailed (category : FailureCategory) (failureId : FailureId)
  | abandon
  deriving DecidableEq

namespace RecoveryDirective

/-- The status of the disposition. -/
def resultingStatus : RecoveryDirective → BatchStatus
  | markFailed _ _ => .failed
  | abandon => .abandoned

def failure : RecoveryDirective → Option (FailureCategory × FailureId)
  | markFailed category failureId => some (category, failureId)
  | abandon => none

end RecoveryDirective

structure ForkRequest where
  operationId : OperationId
  sourceExecutionId : JobExecutionId
  sourceVersion : ExecutionVersion
  target : DefinitionRegistration
  parameters : JobParameters
  contextTransform : Option ForkContextTransform

inductive RequestArguments where
  | definition (definition : DefinitionIdentity)
  | definitionUpgrade (upgrade : DefinitionUpgrade)
  | fork (request : ForkRequest)
  | none
  | recovery (directive : RecoveryDirective) (evidenceDigest : Digest) (unknownCommit : Bool)

inductive OperatorTarget where
  | instanceKey (key : JobInstanceKey)
  | jobInstance (id : JobInstanceId)
  | execution (id : JobExecutionId)
  deriving DecidableEq

/-- `DefinitionStateKind::as_str`. -/
def stateKindText : DefinitionStateKind → String
  | .checkpoint => "checkpoint"
  | .executionContext => "execution-context"
  | .componentState => "component-state"
  | .scopeResolution => "scope-resolution"
  | .repeat => "repeat"
  | .faultState => "fault-state"

end Arguments

section Writers

namespace CanonicalBytes

def pushOptionalU64 (writer : CanonicalBytes) : Option Nat → CanonicalBytes
  | some value => CanonicalBytes.pushU64 (writer ++ [1]) value
  | none => writer ++ [0]

def pushDefinitionIdentity (writer : CanonicalBytes) (definition : DefinitionIdentity) :
    CanonicalBytes :=
  ((writer.pushStr definition.revision.value).pushU64 definition.manifestFormat).pushBytes
    (digestBytes definition.manifestDigest)

/-- The descriptor of a state transform, as a fork and an upgrade write it. -/
def pushStateTransform (writer : CanonicalBytes)
    (transform : DefinitionStateTransform) : CanonicalBytes :=
  let endpoints := ((((writer.pushStr transform.sourceNode.value).pushStr
    transform.targetNode.value).pushStr (stateKindText transform.kind)).pushStr
      transform.stateId.value)
  let source := (endpoints.pushStr transform.sourceSchema.value).pushU64
    transform.sourceVersion.get
  ((source.pushStr transform.targetSchema.value).pushU64 transform.targetVersion.get).pushStr
    transform.revision.value

def pushForkRequest (hash : List UInt8 → Digest) (writer : CanonicalBytes)
    (request : ForkRequest) : CanonicalBytes :=
  let source := (writer.pushU64 request.sourceExecutionId.get).pushU64 request.sourceVersion.val
  let target := ((source.pushStr request.target.jobName.value).pushDefinitionIdentity
    request.target.definition).pushStr request.target.artifact.value
  let parameters := target.pushBytes
    (digestBytes (JobParameters.flowInputDigest hash request.parameters))
  match request.contextTransform with
  | some selected =>
    (((parameters.pushU64 1).pushU64 selected.sourceStepExecutionId.get).pushU64
      selected.sourceStepVersion.val).pushStateTransform selected.descriptor
  | none => parameters.pushU64 0

/-- The entries of a mapping, behind their number. -/
def pushMapping {maxBytes : Nat} (writer : CanonicalBytes)
    (mapping : List (Token maxBytes × Token maxBytes)) : CanonicalBytes :=
  mapping.foldl (fun writer entry => (writer.pushStr entry.1.value).pushStr entry.2.value)
    (writer.pushU64 (min mapping.length (u64Limit - 1)))

def pushDefinitionUpgrade (writer : CanonicalBytes) (upgrade : DefinitionUpgrade) :
    CanonicalBytes :=
  let keyed := (writer.pushStr upgrade.key.value).pushStr ((upgrade.revision.map (·.value)).getD "")
  let endpoints := (keyed.pushDefinitionIdentity upgrade.source).pushDefinitionIdentity upgrade.target
  let mapped := (endpoints.pushMapping upgrade.stepMapping.toList).pushMapping
    upgrade.nodeMapping.toList
  upgrade.transforms.foldl pushStateTransform
    (mapped.pushU64 (min upgrade.transforms.length (u64Limit - 1)))

end CanonicalBytes

variable (hash : List UInt8 → Digest)

/-- `OperatorTarget::identity`. -/
def OperatorTarget.identity : OperatorTarget → String
  | instanceKey key => "instance-key:" ++ hexText (digestBytes (key.digest hash))
  | jobInstance id => "instance:" ++ toString id.get
  | execution id => "execution:" ++ toString id.get

/-- What `request_digest` hashes. -/
def requestBytes (action : OperatorAction) (target : String)
    (expectedVersion : Option ExecutionVersion) (reason : Option ReasonCode)
    (arguments : RequestArguments) : CanonicalBytes :=
  let named := ((CanonicalBytes.new "oxide-batch.operator-request.v1").pushStr action.asStr).pushStr
    target
  let writer := (named.pushOptionalU64 (expectedVersion.map Fin.val)).pushStr
    ((reason.map (·.value)).getD "")
  match arguments with
  | .none => writer.pushStr "NONE"
  | .definition definition =>
    ((writer.pushStr "DEFINITION").pushStr definition.revision.value).pushBytes
      (digestBytes definition.manifestDigest)
  | .definitionUpgrade upgrade => (writer.pushStr "DEFINITION_UPGRADE").pushDefinitionUpgrade upgrade
  | .fork request => (writer.pushStr "FORK").pushForkRequest hash request
  | .recovery directive evidenceDigest unknownCommit =>
    let decided := (((writer.pushStr "RECOVERY").pushStr
      directive.resultingStatus.asStr).pushBytes (digestBytes evidenceDigest)).pushU64
        unknownCommit.toNat
    match directive.failure with
    | some (category, failureId) => (decided.pushStr category.asStr).pushU64 failureId.get
    | none => decided.pushStr ""

end Writers

section Requests

/-- `OperatorRequest`; its digest is a function of the other fields. -/
structure OperatorRequest where
  action : OperatorAction
  operationId : OperationId
  actor : ActorRef
  reason : Option ReasonCode
  target : OperatorTarget
  expectedVersion : Option ExecutionVersion
  arguments : RequestArguments

namespace OperatorRequest

def launch (operationId : OperationId) (actor : ActorRef) (key : JobInstanceKey)
    (definition : DefinitionIdentity) : OperatorRequest :=
  ⟨.launch, operationId, actor, none, .instanceKey key, none, .definition definition⟩

def restart (operationId : OperationId) (actor : ActorRef) (id : JobInstanceId)
    (definition : DefinitionIdentity) : OperatorRequest :=
  ⟨.restart, operationId, actor, none, .jobInstance id, none, .definition definition⟩

def restartCompatible (operationId : OperationId) (actor : ActorRef) (id : JobInstanceId)
    (upgrade : DefinitionUpgrade) : OperatorRequest :=
  ⟨.restart, operationId, actor, none, .jobInstance id, none, .definitionUpgrade upgrade⟩

/-- The fork request brings its own operation identifier. -/
def fork (actor : ActorRef) (request : ForkRequest) : OperatorRequest :=
  ⟨.fork, request.operationId, actor, none, .execution request.sourceExecutionId,
    some request.sourceVersion, .fork request⟩

def stop (operationId : OperationId) (actor : ActorRef) (id : JobExecutionId)
    (expectedVersion : ExecutionVersion) : OperatorRequest :=
  ⟨.stop, operationId, actor, none, .execution id, some expectedVersion, .none⟩

def abandon (operationId : OperationId) (actor : ActorRef) (reason : ReasonCode)
    (id : JobExecutionId) (expectedVersion : ExecutionVersion) : OperatorRequest :=
  ⟨.abandon, operationId, actor, some reason, .execution id, some expectedVersion, .none⟩

def bytes (hash : List UInt8 → Digest) (request : OperatorRequest) : CanonicalBytes :=
  requestBytes hash request.action (request.target.identity hash) request.expectedVersion
    request.reason request.arguments

/-- `request_digest` of the request. -/
def digest (hash : List UInt8 → Digest) (request : OperatorRequest) : Digest :=
  hash (request.bytes hash)

end OperatorRequest

end Requests

section Evidence

inductive OwnerObservation where
  | absent
  | currentProcess
  | otherProcess
  deriving DecidableEq

def OwnerObservation.code : OwnerObservation → String
  | absent => "ABSENT"
  | currentProcess => "CURRENT_PROCESS"
  | otherProcess => "OTHER_PROCESS"

inductive DurableStateKind where
  | checkpoint
  | executionContext
  | componentState
  deriving DecidableEq

structure StateEnvelopeDescriptor where
  kind : DurableStateKind
  formatVersion : UInt16
  schemaId : StateSchemaId
  schemaVersion : StateSchemaVersion
  encodedLen : UInt64
  deriving DecidableEq

structure RecoveryStepEvidence where
  id : StepExecutionId
  status : BatchStatus
  checkpoint : Option StateEnvelopeDescriptor
  deriving DecidableEq

/-- The bits of the marker set. -/
structure RecoveryMarkers where
  unknownCommit : Bool
  completedPartition : Bool
  committedFlowDecision : Bool
  ambiguousExternalEffect : Bool
  deriving DecidableEq

/-- `std::time::SystemTime` in nanoseconds from the epoch: its distance from there is a
`Duration`. -/
structure StdSystemTime where
  nanos : Int
  within : nanos.natAbs < u64Limit * 10 ^ 9
  deriving DecidableEq

structure RecoverySnapshot where
  executionId : JobExecutionId
  status : BatchStatus
  attempt : UInt32
  version : ExecutionVersion
  owner : OwnerObservation
  updatedAt : StdSystemTime
  serverTime : StdSystemTime
  latestStep : Option RecoveryStepEvidence
  markers : RecoveryMarkers
  deriving DecidableEq

/-- A snapshot between the clock observations around it. -/
structure RecoveryEvidence where
  snapshot : RecoverySnapshot
  inactivity : Duration
  observedClockOffset : Duration
  observationWindow : Duration
  deriving DecidableEq

/-- Seconds, then the nanoseconds left. -/
def CanonicalBytes.pushDuration (writer : CanonicalBytes) (nanos : Nat) : CanonicalBytes :=
  (writer.pushU64 (nanos / 10 ^ 9)).pushU64 (nanos % 10 ^ 9)

def CanonicalBytes.pushSystemTime (writer : CanonicalBytes) (value : StdSystemTime) :
    CanonicalBytes :=
  if 0 ≤ value.nanos then (writer.pushStr "AFTER_EPOCH").pushDuration value.nanos.natAbs
  else (writer.pushStr "BEFORE_EPOCH").pushDuration value.nanos.natAbs

def CanonicalBytes.pushCheckpoint (writer : CanonicalBytes) :
    Option StateEnvelopeDescriptor → CanonicalBytes
  | some checkpoint =>
    (((writer.pushU64 checkpoint.formatVersion.toNat).pushStr checkpoint.schemaId.value).pushU64
      checkpoint.schemaVersion.get).pushU64 checkpoint.encodedLen.toNat
  | none => writer.pushStr "NO_CHECKPOINT"

def CanonicalBytes.pushLatestStep (writer : CanonicalBytes) :
    Option RecoveryStepEvidence → CanonicalBytes
  | some step =>
    ((writer.pushU64 step.id.get).pushStr step.status.asStr).pushCheckpoint step.checkpoint
  | none => writer.pushStr "NO_STEP"

/-- What `RecoveryEvidence::digest` hashes: the durable timestamp, not the time and the
durations of the observation. -/
def RecoveryEvidence.bytes (evidence : RecoveryEvidence) : CanonicalBytes :=
  let snapshot := evidence.snapshot
  let status := ((CanonicalBytes.new "oxide-batch.recovery-evidence.v1").pushU64
    snapshot.executionId.get).pushStr snapshot.status.asStr
  let owner := ((status.pushU64 snapshot.attempt.toNat).pushU64 snapshot.version.val).pushStr
    snapshot.owner.code
  let step := (owner.pushSystemTime snapshot.updatedAt).pushLatestStep snapshot.latestStep
  (((step.pushU64 snapshot.markers.unknownCommit.toNat).pushU64
    snapshot.markers.completedPartition.toNat).pushU64
      snapshot.markers.committedFlowDecision.toNat).pushU64
        snapshot.markers.ambiguousExternalEffect.toNat

def RecoveryEvidence.digest {Hash : Type} (sha : List UInt8 → Hash) (evidence : RecoveryEvidence) :
    Hash := sha evidence.bytes

end Evidence

section Recovery

/-- A recovery is asked for with the digest of its evidence. -/
def OperatorRequest.recover (hash : List UInt8 → Digest) (operationId : OperationId)
    (actor : ActorRef) (reason : ReasonCode) (directive : RecoveryDirective)
    (evidence : RecoveryEvidence) : OperatorRequest :=
  ⟨.recover, operationId, actor, some reason, .execution evidence.snapshot.executionId,
    some evidence.snapshot.version,
    .recovery directive (evidence.digest hash) evidence.snapshot.markers.unknownCommit⟩

end Recovery

end OxideBatch.Service
