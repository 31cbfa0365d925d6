import OxideBatch.Lib.InPlace
import OxideBatch.Repository.Effects

/-! The lifecycle of an execution under any sequence of calls: in which order its instants
stand, when it has an end time and a failure, and what its version counts. -/

namespace OxideBatch.Repository

open OxideBatch.Core OxideBatch.Lib Program

section Calls

/-- The transitions that can be requested. -/
inductive LifecycleTransition.Made : LifecycleTransition → Prop where
  | new (target : BatchStatus) (transitionedAt : SystemTime) : Made (.new target transitionedAt)
  | failed (transitionedAt : SystemTime) (failure : FailureSummary) :
      Made (.failed transitionedAt failure)
  | withTerminalRollback (made : Made transition) :
      Made { transition with terminalRollback := true }

/-- Only a transition to `FAILED` brings a failure. -/
theorem LifecycleTransition.Made.failure {transition : LifecycleTransition}
    (made : transition.Made) (elsewhere : transition.target ≠ .failed) :
    transition.failure = none := by
  induction made with
  | new => rfl
  | failed => exact absurd rfl elsewhere
  | withTerminalRollback _ ih => exact ih elsewhere

/-- `transition_execution`, effect by effect. -/
def transitionExecution (expected : ExecutionVersion) (transition : LifecycleTransition) :
    InPlace LifecycleError Versioned ExecutionVersion := do
  let record ← get
  validateExpectedVersion expected record.version
  let updatedMetadata ← record.metadata.transition transition
  let updatedVersion ← record.version.next
  modify fun record => { record with metadata := updatedMetadata }
  modify fun record => { record with version := updatedVersion }
  return updatedVersion

/-- `enrich_execution_exit_status`, effect by effect. -/
def enrichExecutionExitStatus (expected : ExecutionVersion) (exitStatus : ExitStatus) :
    InPlace LifecycleError Versioned ExecutionVersion := do
  let record ← get
  validateExpectedVersion expected record.version
  let updatedVersion ← record.version.next
  modify fun record => { record with metadata := record.metadata.withExitStatus exitStatus }
  modify fun record => { record with version := updatedVersion }
  return updatedVersion

/-- A call on the snapshot of an execution. -/
inductive LifecycleCall where
  | transition (expected : ExecutionVersion) (requested : LifecycleTransition)
      (made : requested.Made)
  | enrichExitStatus (expected : ExecutionVersion) (exitStatus : ExitStatus)

def LifecycleCall.expected : LifecycleCall → ExecutionVersion
  | transition expected _ _ => expected
  | enrichExitStatus expected _ => expected

def LifecycleCall.onRecord : LifecycleCall → InPlace LifecycleError Versioned ExecutionVersion
  | .transition expected requested _ => transitionExecution expected requested
  | .enrichExitStatus expected exitStatus => enrichExecutionExitStatus expected exitStatus

/-- The snapshot of a job or a step execution. -/
inductive Execution where
  | job (execution : JobExecution)
  | step (execution : StepExecution)

namespace Execution

def record : Execution → Versioned
  | .job execution => execution.toVersioned
  | .step execution => execution.toVersioned

def withRecord : Execution → Versioned → Execution
  | .job execution, record => .job { execution with toVersioned := record }
  | .step execution, record => .step { execution with toVersioned := record }

private theorem record_withRecord (execution : Execution) (record : Versioned) :
    (execution.withRecord record).record = record := by
  cases execution <;> rfl

private theorem withRecord_record (execution : Execution) :
    execution.withRecord execution.record = execution := by
  cases execution <;> rfl

/-- A fresh `STARTING` snapshot; a step may start with inherited counts. -/
inductive Fresh : Execution → Prop where
  | job (id : JobExecutionId) (jobInstanceId : JobInstanceId) (createdAt : SystemTime) :
      Fresh (.job (.new id jobInstanceId (.starting createdAt .zero)))
  | step (id : StepExecutionId) (jobExecutionId : JobExecutionId) (stepName : StepName)
      (createdAt : SystemTime) (counts : ExecutionCounts) :
      Fresh (.step (.new id jobExecutionId stepName (.starting createdAt counts)))

theorem Fresh.record (fresh : Fresh execution) :
    ∃ createdAt counts, execution.record = ⟨.starting createdAt counts, .initial⟩ := by
  cases fresh with
  | job _ _ createdAt => exact ⟨createdAt, .zero, rfl⟩
  | step _ _ _ createdAt counts => exact ⟨createdAt, counts, rfl⟩

/-- `transition` and `enrich_exit_status` of a job or a step execution. -/
def call (request : LifecycleCall) : InPlace LifecycleError Execution ExecutionVersion :=
  request.onRecord.on record withRecord

end Execution

end Calls

section Steps

/-- The pure transition, with the snapshot kept when it fails. -/
private theorem perform_transition (expected : ExecutionVersion) (transition : LifecycleTransition)
    (record : Versioned) : perform (transitionExecution expected transition) record =
      match record.transition expected transition with
      | .ok after => (.ok after.version, after)
      | .error failure => (.error failure, record) := by
  simp only [Versioned.transition, transitionExecution, perform_bind, perform_get, perform_lift]
  cases validateExpectedVersion expected record.version with
  | error failure => rfl
  | ok _ =>
    cases moved : record.metadata.transition transition with
    | error failure => simp only [moved]; rfl
    | ok metadata =>
      cases raised : record.version.next with
      | error failure => simp only [moved, raised]; rfl
      | ok version => simp only [moved, raised]; rfl

private theorem perform_enrich (expected : ExecutionVersion) (exitStatus : ExitStatus)
    (record : Versioned) : perform (enrichExecutionExitStatus expected exitStatus) record =
      match record.enrichExitStatus expected exitStatus with
      | .ok after => (.ok after.version, after)
      | .error failure => (.error failure, record) := by
  simp only [Versioned.enrichExitStatus, enrichExecutionExitStatus, perform_bind, perform_get,
    perform_lift]
  cases validateExpectedVersion expected record.version with
  | error failure => rfl
  | ok _ =>
    cases raised : record.version.next with
    | error failure => simp only [raised]; rfl
    | ok version => simp only [raised]; rfl

/-- A call as a function of the snapshot. -/
def LifecycleCall.apply (record : Versioned) : LifecycleCall → Except LifecycleError Versioned
  | transition expected requested _ => record.transition expected requested
  | enrichExitStatus expected exitStatus => record.enrichExitStatus expected exitStatus

/-- A call answers the version of the new snapshot, and leaves the old one when it fails. -/
private theorem perform_onRecord (request : LifecycleCall) (record : Versioned) :
    perform request.onRecord record =
      match request.apply record with
      | .ok after => (.ok after.version, after)
      | .error failure => (.error failure, record) := by
  cases request with
  | transition expected requested made => exact perform_transition expected requested record
  | enrichExitStatus expected exitStatus => exact perform_enrich expected exitStatus record

/-- What an accepted call does to the metadata. -/
inductive LifecycleStep (before : ExecutionMetadata) : ExecutionMetadata → Prop where
  | moved (legal : isLegalInPlaceTransition before.status after.status = true)
      (ended : after.timestamps.endedAt.isSome = after.status.isFinished)
      (failure : after.failure = brought.or before.failure)
      (source : after.status ≠ .failed → brought = none) : LifecycleStep before after
  | enriched (exitStatus : ExitStatus) : LifecycleStep before (before.withExitStatus exitStatus)

private theorem timestamps_new_ok
    (made : ExecutionTimestamps.new createdAt startedAt endedAt = .ok timestamps) :
    timestamps.endedAt = endedAt := by
  unfold ExecutionTimestamps.new at made
  split at made
  · cases made
    rfl
  · cases made

private theorem metadata_transition_step {requested : LifecycleTransition} (made : requested.Made)
    (moved : before.transition requested = .ok after) : LifecycleStep before after := by
  unfold ExecutionMetadata.transition at moved
  obtain ⟨_, valid, moved⟩ := bind_ok.mp moved
  split at moved
  · cases moved
  · obtain ⟨timestamps, ordered, moved⟩ := bind_ok.mp moved
    have built : ∃ counts, ExecutionMetadata.new requested.target before.exitStatus timestamps
        counts (requested.failure.or before.failure) = .ok after := by
      dsimp only at moved
      split at moved
      · obtain ⟨counts, _, moved⟩ := bind_ok.mp moved
        exact ⟨counts, mapError_ok.mp moved⟩
      · exact ⟨before.counts, mapError_ok.mp moved⟩
    obtain ⟨counts, built⟩ := built
    obtain ⟨status, _, _, instants, failure⟩ := ExecutionMetadata.new_ok built
    refine .moved ?_ ?_ failure fun elsewhere => made.failure (status ▸ elsewhere)
    · rw [status]
      exact validateTransition_ok valid
    · rw [instants, timestamps_new_ok (mapError_ok.mp ordered), status]
      cases requested.target.isFinished with
      | true => cases before.timestamps.endedAt <;> rfl
      | false => rfl

private theorem validateExpectedVersion_ok
    (checked : validateExpectedVersion expected actual = .ok answer) :
    expected = actual := by
  unfold validateExpectedVersion at checked
  split at checked
  · cases checked
  · rename_i same
    exact not_not.mp same

private theorem version_next_ok (raised : ExecutionVersion.next version = .ok next) :
    next.val = version.val + 1 := by
  unfold ExecutionVersion.next at raised
  split at raised
  · cases raised
    rfl
  · cases raised

/-- An accepted call names the version, raises it by one, and takes one step. -/
private theorem apply_ok {request : LifecycleCall} (applied : request.apply before = .ok after) :
    request.expected = before.version ∧ after.version.val = before.version.val + 1 ∧
      LifecycleStep before.metadata after.metadata := by
  cases request with
  | transition expected requested made =>
    simp only [LifecycleCall.apply, Versioned.transition, bind_ok, pure_ok] at applied
    obtain ⟨_, checked, metadata, moved, version, raised, rfl⟩ := applied
    exact ⟨validateExpectedVersion_ok checked, version_next_ok raised,
      metadata_transition_step made moved⟩
  | enrichExitStatus expected exitStatus =>
    simp only [LifecycleCall.apply, Versioned.enrichExitStatus, bind_ok, pure_ok] at applied
    obtain ⟨_, checked, version, raised, rfl⟩ := applied
    exact ⟨validateExpectedVersion_ok checked, version_next_ok raised, .enriched exitStatus⟩

end Steps

section Runs

/-- The snapshot calls are optimistically locked by their version. -/
private theorem lifecycle_locked : Locked LifecycleCall.onRecord
    (fun request => request.expected.val)
    (fun record => record.version.val) := by
  constructor
  · intro request record accepted
    rw [perform_onRecord] at accepted ⊢
    cases applied : request.apply record with
    | error failure =>
      rw [applied] at accepted
      cases accepted
    | ok after =>
      obtain ⟨named, raised, _⟩ := apply_ok applied
      exact ⟨congrArg Fin.val named, raised⟩
  · intro request record refused
    rw [perform_onRecord] at refused ⊢
    cases applied : request.apply record with
    | error failure => rfl
    | ok after =>
      rw [applied] at refused
      cases refused

/-- A call either leaves the snapshot or takes a step. -/
private theorem perform_step (request : LifecycleCall) (record : Versioned) :
    (perform request.onRecord record).2 = record ∨
      LifecycleStep record.metadata (perform request.onRecord record).2.metadata := by
  rw [perform_onRecord]
  cases applied : request.apply record with
  | error failure => exact .inl rfl
  | ok after => exact .inr (apply_ok applied).2.2

/-- What every call keeps of the metadata that every step keeps. -/
private theorem run_keeps {invariant : ExecutionMetadata → Prop}
    (step : ∀ before after, LifecycleStep before after → invariant before → invariant after)
    {record : Versioned} (start : invariant record.metadata) (requests : List LifecycleCall) :
    invariant (runCalls LifecycleCall.onRecord record requests).metadata := by
  let kept : Versioned → Prop := fun record => invariant record.metadata
  refine @runCalls_keeps _ _ _ _ _ kept (fun request record holds => ?_) _ start requests
  rcases perform_step request record with same | stepped
  · rw [same]
    exact holds
  · exact step _ _ stepped holds

/-- An end time exactly in the finished states, and a failure only in `FAILED` or behind it. -/
structure Coherent (metadata : ExecutionMetadata) : Prop where
  ended : metadata.timestamps.endedAt.isSome = metadata.status.isFinished
  source : metadata.failure.isSome = true → metadata.status = .failed ∨ metadata.status = .abandoned

theorem LifecycleStep.coherent (step : LifecycleStep before after) (coherent : Coherent before) :
    Coherent after := by
  cases step with
  | enriched exitStatus => exact ⟨coherent.ended, coherent.source⟩
  | @moved _ brought legal ended failure source =>
    refine ⟨ended, fun present => ?_⟩
    by_cases elsewhere : after.status = .failed
    · exact .inl elsewhere
    · rw [failure, source elsewhere, Option.none_or] at present
      right
      rcases coherent.source present with held | held <;> rw [held] at legal <;>
        cases target : after.status <;> rw [target] at legal <;> first | rfl | cases legal

/-- A failure is kept as it is. -/
theorem LifecycleStep.failure (step : LifecycleStep before after) (coherent : Coherent before)
    (held : before.failure = some summary) : after.failure = some summary := by
  cases step with
  | enriched exitStatus => exact held
  | @moved _ brought legal ended failure source =>
    have elsewhere : after.status ≠ .failed := by
      intro target
      rcases coherent.source (held ▸ rfl) with status | status <;>
        rw [status, target] at legal <;> cases legal
    rw [failure, source elsewhere, held]
    rfl

/-- `COMPLETED` and `ABANDONED` are never left. -/
theorem LifecycleStep.final (step : LifecycleStep before after)
    (final : before.status = .completed ∨ before.status = .abandoned) :
    after.status = before.status := by
  cases step with
  | enriched exitStatus => rfl
  | moved legal ended failure source =>
    rcases final with status | status <;> rw [status] at legal <;>
      cases target : after.status <;> rw [target] at legal <;> cases legal

/-- `ABANDONED` is entered from `STOPPED`, `FAILED` or `UNKNOWN`. -/
theorem LifecycleStep.abandoned (step : LifecycleStep before after)
    (target : after.status = .abandoned) : before.status = .abandoned ∨
      before.status = .stopped ∨ before.status = .failed ∨ before.status = .unknown := by
  cases step with
  | enriched exitStatus => exact .inl target
  | moved legal ended failure source =>
    rw [target] at legal
    cases status : before.status <;> rw [status] at legal <;> simp_all [isLegalInPlaceTransition]

private theorem fresh_coherent (createdAt : SystemTime) (counts : ExecutionCounts) :
    Coherent (ExecutionMetadata.starting createdAt counts) :=
  ⟨rfl, nofun⟩

/-- The calls of an execution act on its snapshot and on nothing else. -/
private theorem run_record (execution : Execution) (requests : List LifecycleCall) :
    (runCalls Execution.call execution requests).record =
        runCalls LifecycleCall.onRecord execution.record requests ∧
      answered Execution.call execution requests =
        answered LifecycleCall.onRecord execution.record requests :=
  runCalls_on Execution.record_withRecord execution requests

private theorem call_refused (request : LifecycleCall) (execution : Execution)
    (refused : (perform (Execution.call request) execution).1.isOk = false) :
    (perform (Execution.call request) execution).2 = execution := by
  unfold Execution.call at refused ⊢
  rw [perform_on, perform_onRecord] at refused ⊢
  cases applied : request.apply execution.record with
  | error failure => exact execution.withRecord_record
  | ok after =>
    rw [applied] at refused
    cases refused

/-- The laws of an execution behind some calls. -/
structure LifecycleLaws (start : Execution) (requests : List LifecycleCall) (reached : Execution) :
    Prop where
  created_started : ∀ startedAt ∈ reached.record.metadata.timestamps.startedAt,
    reached.record.metadata.timestamps.createdAt ≤ startedAt
  started_ended : ∀ endedAt ∈ reached.record.metadata.timestamps.endedAt,
    reached.record.metadata.timestamps.createdAt ≤ endedAt ∧
      ∀ startedAt ∈ reached.record.metadata.timestamps.startedAt, startedAt ≤ endedAt
  ended_finished : reached.record.metadata.timestamps.endedAt.isSome =
    reached.record.metadata.status.isFinished
  failed_failure : reached.record.metadata.status = .failed →
    reached.record.metadata.failure.isSome = true
  failure_kept : ∀ failure later, reached.record.metadata.failure = some failure →
    (runCalls Execution.call reached later).record.metadata.failure = some failure
  version_counts : reached.record.version.val =
    ExecutionVersion.initial.val + (answered Execution.call start requests).length
  final_kept : ∀ later, reached.record.metadata.status = .completed ∨
      reached.record.metadata.status = .abandoned →
    (runCalls Execution.call reached later).record.metadata.status =
      reached.record.metadata.status
  abandoned_source : ∀ request,
    (perform (Execution.call request) reached).2.record.metadata.status = .abandoned →
      reached.record.metadata.status ∈
        [BatchStatus.abandoned, .stopped, .failed, .unknown]
  refused_unchanged : ∀ request, (perform (Execution.call request) reached).1.isOk = false →
    (perform (Execution.call request) reached).2 = reached
  one_winner : ((answered Execution.call start requests).map (·.expected)).Nodup

/-- Every job or step execution reached from a fresh one by any calls obeys the laws of the
lifecycle. -/
theorem execution_lifecycle (fresh : Execution.Fresh execution) (requests : List LifecycleCall) :
    LifecycleLaws execution requests (runCalls Execution.call execution requests) := by
  obtain ⟨createdAt, counts, start⟩ := fresh.record
  obtain ⟨reached, answers⟩ := run_record execution requests
  have coherent : Coherent (runCalls Execution.call execution requests).record.metadata := by
    rw [reached]
    exact run_keeps (fun _ _ step => step.coherent) (start ▸ fresh_coherent createdAt counts) requests
  have versions := lifecycle_locked.answered_versions execution.record requests
  generalize runCalls Execution.call execution requests = current at reached coherent ⊢
  constructor
  · exact current.record.metadata.timestamps.started
  · intro endedAt ended
    have ordered := current.record.metadata.timestamps.ended endedAt ended
    cases started : current.record.metadata.timestamps.startedAt with
    | none =>
      rw [started] at ordered
      exact ⟨ordered, nofun⟩
    | some startedAt =>
      rw [started] at ordered
      have first := current.record.metadata.timestamps.started startedAt started
      refine ⟨first.trans ordered, fun other same => ?_⟩
      cases same
      exact ordered
  · exact coherent.ended
  · intro failed
    exact Option.isSome_iff_ne_none.mpr (current.record.metadata.failed failed)
  · intro failure later held
    rw [(run_record current later).1]
    have kept := @run_keeps
      (fun metadata => Coherent metadata ∧ metadata.failure = some failure)
      (fun _ _ step holds => ⟨step.coherent holds.1, step.failure holds.1 holds.2⟩)
      _ ⟨coherent, held⟩ later
    exact kept.2
  · rw [reached, answers, versions.2, start]
  · intro later final
    rw [(run_record current later).1]
    exact @run_keeps
      (fun metadata => metadata.status = current.record.metadata.status)
      (fun before after step same => (step.final (same ▸ final)).trans same) _ rfl later
  · intro request target
    unfold Execution.call at target
    rw [perform_on, Execution.record_withRecord] at target
    rcases perform_step request current.record with same | stepped
    · rw [same] at target
      simp [target]
    · simpa using stepped.abandoned target
  · intro request refused
    exact call_refused request current refused
  · rw [answers]
    exact List.Nodup.of_map _ (by
      rw [List.map_map]
      exact lifecycle_locked.answered_nodup execution.record requests)

/-- A step execution created at the epoch with the counts of the one before. -/
def loadStep : Execution :=
  .step (.new 1 1 ⟨"load", Eq.refl true⟩
    (.starting 0 ⟨3, 2, 2, 1, 1, 0⟩))

/-- The step is started, completed twice with one version, and then abandoned in vain. -/
def loadCalls : List LifecycleCall :=
  [.transition 0 (.new .started 1) (.new _ _),
    .transition 1 (.new .completed 2) (.new _ _),
    .transition 1 (.new .completed 3) (.new _ _),
    .transition 2 (.new .abandoned 4) (.new _ _)]

theorem completed_step_stays :
    LifecycleLaws loadStep loadCalls (runCalls Execution.call loadStep loadCalls) ∧
      (runCalls Execution.call loadStep loadCalls).record.version.val = 2 ∧
      (runCalls Execution.call loadStep loadCalls).record.metadata.status = .completed :=
  ⟨execution_lifecycle (.step _ _ _ _ _) _, by decide +kernel, by decide +kernel⟩

end Runs

end OxideBatch.Repository
