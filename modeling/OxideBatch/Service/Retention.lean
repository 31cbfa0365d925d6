import OxideBatch.Service.Units

/-! `RetentionService`: holds, releases, and purges, each recorded under its operation
identifier in the unit of its effect. -/

namespace OxideBatch.Service

open OxideBatch.Core OxideBatch.Plan OxideBatch.Repository OxideBatch.Lib

section Requests

/-- What `plan_digest` hashes: the request and the candidates with their versions. -/
def planBytes (plan : PurgePlan) : CanonicalBytes :=
  let named := (CanonicalBytes.new "oxide-batch.retention-plan.v1").pushStr plan.request.jobName.value
  let statuses := plan.request.statuses.statuses.toList.foldl
    (fun bytes status => bytes.pushStr status.asStr) named
  let bounded := (statuses.pushU64 (plan.request.minimumAge / 10 ^ 9)).pushU64
    plan.request.batch.get
  plan.candidates.foldl (fun bytes candidate =>
    ((bytes.pushU64 candidate.jobInstanceId.get).pushU64 candidate.jobExecutionId.get).pushU64
      candidate.version.val) bounded

inductive RetentionError where
  | retentionPlanStale
  | operationIdConflict (action : RetentionAction) (operationId : OperationId)
  | repository (error : RepositoryError)
  deriving DecidableEq

/-- `From<RepositoryError>`. -/
def RetentionError.ofRepository : RepositoryError → RetentionError
  | .retentionPlanStale => .retentionPlanStale
  | error => .repository error

structure RetentionReport where
  outcome : RetentionOutcome
  record : RetentionRecord
  hold : Option RetentionHold
  deriving DecidableEq

def PurgeCounts.zero : PurgeCounts := ⟨0, 0, 0, 0, 0, 0, 0⟩

/-- `RetentionRecordDraft::instance_action`. -/
def instanceActionDraft (action : RetentionAction) (operationId : OperationId) (actor : ActorRef)
    (reason : ReasonCode) (jobInstanceId : JobInstanceId) (appliedAt : SystemTime) :
    RetentionRecordDraft :=
  ⟨action, operationId, actor, reason, some jobInstanceId, none, PurgeCounts.zero, none, .applied,
    appliedAt⟩

/-- `RetentionRecordDraft::purge`. -/
def purgeDraft (operationId : OperationId) (actor : ActorRef) (reason : ReasonCode)
    (planDigest : Digest) (counts : PurgeCounts) (batchBound : PurgeBatchBound)
    (appliedAt : SystemTime) : RetentionRecordDraft :=
  ⟨.applyPurge, operationId, actor, reason, none, some planDigest, counts, some batchBound.get,
    .applied, appliedAt⟩

/-- `find_retention_action`. -/
def findRetentionAction (state : MemoryState) (action : RetentionAction)
    (operationId : OperationId) : Option RetentionRecord := do
  let id ← state.retentionActionKeys[(action.asStr, operationId)]?
  state.retentionActions[id]?

end Requests

section Calls

/-- The unit in which a hold is placed or released. -/
def holdUnit (action : RetentionAction) (operationId : OperationId) (actor : ActorRef)
    (reason : ReasonCode) (jobInstanceId : JobInstanceId) (appliedAt : SystemTime) :
    StagedM RetentionReport := do
  let hold ← match action with
    | .hold => do
      let hold ← placeInstanceHold jobInstanceId actor reason appliedAt
      pure (some hold)
    | .releaseHold => do
      let _ ← releaseInstanceHold jobInstanceId
      pure none
    | .applyPurge => pure none
  let record ← appendRetentionAction
    (instanceActionDraft action operationId actor reason jobInstanceId appliedAt)
  pure ⟨.applied, record, hold⟩

/-- The unit in which a plan is applied. -/
def purgeUnit (hash : List UInt8 → Digest) (operationId : OperationId) (actor : ActorRef)
    (reason : ReasonCode) (plan : PurgePlan) (appliedAt : SystemTime) : StagedM RetentionReport := do
  let counts ← Repository.applyPurge plan
  let record ← appendRetentionAction
    (purgeDraft operationId actor reason (hash (planBytes plan)) counts plan.request.batch appliedAt)
  pure ⟨.applied, record, none⟩

inductive RetentionCall where
  | placeHold (operationId : OperationId) (actor : ActorRef) (reason : ReasonCode)
      (jobInstanceId : JobInstanceId)
  | releaseHold (operationId : OperationId) (actor : ActorRef) (reason : ReasonCode)
      (jobInstanceId : JobInstanceId)
  | applyPurge (operationId : OperationId) (actor : ActorRef) (reason : ReasonCode)
      (plan : PurgePlan)

/-- What a retention action is asked to do, and for whom. -/
structure RetentionRequest where
  jobInstanceId : Option JobInstanceId
  planDigest : Option Digest
  actor : ActorRef
  reason : ReasonCode
  deriving DecidableEq

def requestOf (record : RetentionRecord) : RetentionRequest :=
  ⟨record.jobInstanceId, record.planDigest, record.actor, record.reason⟩

namespace RetentionCall

variable (hash : List UInt8 → Digest) (appliedAt : SystemTime)

def action : RetentionCall → RetentionAction
  | placeHold .. => .hold
  | releaseHold .. => .releaseHold
  | applyPurge .. => .applyPurge

def operationId : RetentionCall → OperationId
  | placeHold operationId .. | releaseHold operationId .. | applyPurge operationId .. => operationId

def request : RetentionCall → RetentionRequest
  | placeHold _ actor reason jobInstanceId | releaseHold _ actor reason jobInstanceId =>
    ⟨some jobInstanceId, none, actor, reason⟩
  | applyPurge _ actor reason plan => ⟨none, some (hash (planBytes plan)), actor, reason⟩

def key (call : RetentionCall) : RetentionAction × OperationId := (call.action, call.operationId)

/-- The unit that carries the effect of a call and its record. -/
def effect : RetentionCall → StagedM RetentionReport
  | placeHold operationId actor reason jobInstanceId =>
    holdUnit .hold operationId actor reason jobInstanceId appliedAt
  | releaseHold operationId actor reason jobInstanceId =>
    holdUnit .releaseHold operationId actor reason jobInstanceId appliedAt
  | applyPurge operationId actor reason plan =>
    purgeUnit hash operationId actor reason plan appliedAt

/-- `replay`: a unit of its own that looks the operation up. -/
def replay (call : RetentionCall) : Session MemoryState (Option RetentionRecord) :=
  .observe fun state => findRetentionAction state call.action call.operationId

/-- `hold_action` and `apply_purge`: what is recorded is replayed, whatever was asked. -/
def session (call : RetentionCall) : Session MemoryState (Except RetentionError RetentionReport) := do
  match ← call.replay with
  | some record => pure (.ok ⟨.replayed, record, none⟩)
  | none =>
    .transact (fun state => (call.effect hash appliedAt state).mapError .ofRepository)
      (.repository .concurrentModification)

end RetentionCall

end Calls

end OxideBatch.Service
