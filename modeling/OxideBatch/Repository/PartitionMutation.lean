import OxideBatch.Lib.InPlace
import OxideBatch.Repository.Partition

/-! The mutations of a partition effect by effect: which fields a refused call has already
written, and which partitions take another worker. -/

namespace OxideBatch.Repository

open OxideBatch.Core OxideBatch.Plan OxideBatch.Lib

namespace StepPartition

/-- Whether a partition takes a worker: a first one, or one that retries an ended attempt. -/
def assignable (partition : StepPartition) : Bool :=
  (partition.status = .starting && partition.workerStepExecutionId.isNone) ||
    ((partition.status = .failed || partition.status = .stopped) &&
      partition.workerStepExecutionId.isSome)

/-- Whether a partition takes a result. -/
def completable (partition : StepPartition) : Bool :=
  partition.status = .started && partition.workerStepExecutionId.isSome

/-- `assign`, effect by effect: the version is raised behind the other fields. -/
def assignInPlace (expected : ExecutionVersion) (worker : StepExecutionId) :
    InPlace PartitionMutationError StepPartition Unit := do
  let partition ← get
  partition.ensureVersion expected
  if !partition.assignable then throw (.invalidState partition.status)
  else do
    modify fun partition => { partition with workerStepExecutionId := some worker }
    modify fun partition => { partition with status := .started }
    modify fun partition => { partition with exitStatus := .unknown }
    modify fun partition => { partition with counts := .zero }
    let written ← get
    let version ← written.nextVersion
    modify fun partition => { partition with version }

/-- `complete`, effect by effect. -/
def completeInPlace (expected : ExecutionVersion) (result : PartitionResult) :
    InPlace PartitionMutationError StepPartition Unit := do
  let partition ← get
  partition.ensureVersion expected
  if !partition.completable then throw (.invalidState partition.status)
  else do
    modify fun partition => { partition with status := result.status }
    modify fun partition => { partition with exitStatus := result.exitStatus }
    modify fun partition => { partition with counts := result.counts }
    let written ← get
    let version ← written.nextVersion
    modify fun partition => { partition with version }

/-- The fields that `assign` writes in front of the version. -/
def withWorker (partition : StepPartition) (worker : StepExecutionId) : StepPartition :=
  { partition with
    workerStepExecutionId := some worker
    status := .started
    exitStatus := .unknown
    counts := .zero }

/-- The fields that `complete` writes in front of the version. -/
def withResult (partition : StepPartition) (result : PartitionResult) : StepPartition :=
  { partition with
    status := result.status
    exitStatus := result.exitStatus
    counts := result.counts }

end StepPartition

/-- A result that its constructor accepts. -/
structure PartitionResult.Valid (result : PartitionResult) : Prop where
  ends : endsPartition result.status = true
  storable : storableCounts result.counts = true

/-- A call on a partition. -/
inductive PartitionCall where
  | assign (expected : ExecutionVersion) (worker : StepExecutionId)
  | complete (expected : ExecutionVersion) (result : PartitionResult) (valid : result.Valid)

namespace PartitionCall

def inPlace : PartitionCall → InPlace PartitionMutationError StepPartition Unit
  | assign expected worker => StepPartition.assignInPlace expected worker
  | complete expected result _ => StepPartition.completeInPlace expected result

def expected : PartitionCall → ExecutionVersion
  | assign expected _ => expected
  | complete expected _ _ => expected

/-- Whether the partition is in a state that takes the call. -/
def suits (partition : StepPartition) : PartitionCall → Bool
  | assign _ _ => partition.assignable
  | complete _ _ _ => partition.completable

/-- The partition with all the call writes in front of the version. -/
def written (partition : StepPartition) : PartitionCall → StepPartition
  | assign _ worker => partition.withWorker worker
  | complete _ result _ => partition.withResult result

end PartitionCall

section Effects

variable (partition : StepPartition)

/-- What a call answers and leaves behind. -/
private theorem perform_inPlace (request : PartitionCall) : perform request.inPlace partition =
    if request.expected ≠ partition.version then
      (.error (.staleVersion request.expected partition.version), partition)
    else if !request.suits partition then (.error (.invalidState partition.status), partition)
    else
      match partition.version.next with
      | .ok version => (.ok (), { request.written partition with version })
      | .error _ => (.error .versionExhausted, request.written partition) := by
  by_cases stale : request.expected ≠ partition.version
  · rw [if_pos stale]
    cases request with
    | assign expected worker =>
      change expected ≠ partition.version at stale
      simp only [PartitionCall.inPlace, StepPartition.assignInPlace, perform_bind, perform_get,
        perform_lift, StepPartition.ensureVersion, if_pos stale]
      rfl
    | complete expected result valid =>
      change expected ≠ partition.version at stale
      simp only [PartitionCall.inPlace, StepPartition.completeInPlace, perform_bind, perform_get,
        perform_lift, StepPartition.ensureVersion, if_pos stale]
      rfl
  · rw [if_neg stale]
    by_cases unfit : (!request.suits partition) = true
    · rw [if_pos unfit]
      cases request with
      | assign expected worker =>
        change ¬ expected ≠ partition.version at stale
        change (!partition.assignable) = true at unfit
        simp only [PartitionCall.inPlace, StepPartition.assignInPlace, perform_bind, perform_get,
          perform_lift, StepPartition.ensureVersion, if_neg stale, if_pos unfit]
        rfl
      | complete expected result valid =>
        change ¬ expected ≠ partition.version at stale
        change (!partition.completable) = true at unfit
        simp only [PartitionCall.inPlace, StepPartition.completeInPlace, perform_bind, perform_get,
          perform_lift, StepPartition.ensureVersion, if_neg stale, if_pos unfit]
        rfl
    · rw [if_neg unfit]
      cases request with
      | assign expected worker =>
        change ¬ expected ≠ partition.version at stale
        change ¬ (!partition.assignable) = true at unfit
        simp only [PartitionCall.inPlace, StepPartition.assignInPlace, perform_bind, perform_get,
          perform_lift, StepPartition.ensureVersion, if_neg stale, if_neg unfit, perform_modify,
          StepPartition.nextVersion]
        cases partition.version.next <;> rfl
      | complete expected result valid =>
        change ¬ expected ≠ partition.version at stale
        change ¬ (!partition.completable) = true at unfit
        simp only [PartitionCall.inPlace, StepPartition.completeInPlace, perform_bind, perform_get,
          perform_lift, StepPartition.ensureVersion, if_neg stale, if_neg unfit, perform_modify,
          StepPartition.nextVersion]
        cases partition.version.next <;> rfl

end Effects

section Atomic

variable {partition : StepPartition} {request : PartitionCall}

/-- A call that raises the version by one, or fails and changes nothing. -/
def Atomic (partition : StepPartition) (request : PartitionCall) : Prop :=
  ((perform request.inPlace partition).1 = .ok () ∧
      (perform request.inPlace partition).2.version.val = partition.version.val + 1) ∨
    ∃ failure, perform request.inPlace partition = (.error failure, partition)

/-- A call refused in front of its writes, or with room for another version. -/
def Unwritten (partition : StepPartition) (request : PartitionCall) : Prop :=
  request.expected ≠ partition.version ∨ request.suits partition = false ∨
    partition.version.val + 1 < u64Limit

private theorem next_ok_iff (version : ExecutionVersion) :
    (∃ next, version.next = .ok next ∧ next.val = version.val + 1) ↔
      version.val + 1 < u64Limit := by
  unfold ExecutionVersion.next
  by_cases room : version.val + 1 < u64Limit
  · simp [room]
  · simp [room]

/-- What a call writes in front of the version changes the status. -/
private theorem written_status (request : PartitionCall) (suits : request.suits partition = true) :
    (request.written partition).status ≠ partition.status := by
  cases request with
  | assign expected worker =>
    intro same
    change BatchStatus.started = partition.status at same
    simp [PartitionCall.suits, StepPartition.assignable, ← same] at suits
  | complete expected result valid =>
    intro same
    have ends := valid.ends
    change result.status = partition.status at same
    simp only [PartitionCall.suits, StepPartition.completable, Bool.and_eq_true,
      decide_eq_true_eq] at suits
    rw [same, suits.1] at ends
    cases ends

private theorem atomic_iff : Atomic partition request ↔ Unwritten partition request := by
  unfold Atomic Unwritten
  rw [perform_inPlace]
  by_cases stale : request.expected ≠ partition.version
  · simp only [if_pos stale]
    exact ⟨fun _ => .inl stale, fun _ => .inr ⟨_, rfl⟩⟩
  · cases suits : request.suits partition with
    | false =>
      simp only [if_neg stale, Bool.not_false, if_true]
      exact ⟨fun _ => .inr (.inl trivial), fun _ => .inr ⟨_, rfl⟩⟩
    | true =>
      simp only [if_neg stale, Bool.not_true, Bool.false_eq_true, if_false]
      have fits : (request.expected ≠ partition.version ∨ False ∨
          partition.version.val + 1 < u64Limit) ↔ partition.version.val + 1 < u64Limit := by
        simp [stale]
      rw [show (true = false) = False from eq_false nofun, fits, ← next_ok_iff]
      cases raised : partition.version.next with
      | ok version =>
        have next : version.val = partition.version.val + 1 := by
          unfold ExecutionVersion.next at raised
          split at raised
          · cases raised
            rfl
          · cases raised
        exact ⟨fun _ => ⟨version, rfl, next⟩, fun _ => .inl ⟨rfl, next⟩⟩
      | error failure =>
        constructor
        · rintro (⟨accepted, _⟩ | ⟨failure, same⟩)
          · cases accepted
          · have kept := congrArg (fun result => result.2.status) same
            exact absurd kept (written_status request suits)
        · rintro ⟨version, other, _⟩
          cases other

end Atomic

section Runs

/-- A partition that is `COMPLETED` or `UNKNOWN`. -/
def StepPartition.Settled (partition : StepPartition) : Prop :=
  partition.status = .completed ∨ partition.status = .unknown

/-- A settled partition refuses every call and stays as it is. -/
theorem StepPartition.Settled.refuses (settled : StepPartition.Settled partition)
    (request : PartitionCall) :
    ∃ failure, perform request.inPlace partition = (.error failure, partition) := by
  have unfit : request.suits partition = false := by
    cases request <;> rcases settled with status | status <;>
      simp [PartitionCall.suits, StepPartition.assignable, StepPartition.completable, status]
  rw [perform_inPlace, unfit]
  by_cases stale : request.expected ≠ partition.version
  · exact ⟨_, if_pos stale⟩
  · exact ⟨_, if_neg stale⟩

/-- Calls on a partition are atomic exactly when they stop in front of their writes or have
room for a version, and from a fresh one none reaches a settled partition that takes a worker. -/
theorem partition_calls_atomic_iff (partition : StepPartition) (request : PartitionCall) :
    (Atomic partition request ↔ Unwritten partition request) ∧
    ∀ id stepExecutionId ordinal key context requests,
      let reached := runCalls PartitionCall.inPlace
        (StepPartition.starting id stepExecutionId ordinal key context) requests
      reached.Settled → ∀ expected worker, ∃ failure,
        perform (StepPartition.assignInPlace expected worker) reached = (.error failure, reached) :=
  ⟨atomic_iff, fun _ _ _ _ _ _ settled expected worker =>
    settled.refuses (.assign expected worker)⟩

private theorem alpha_fits : "alpha" ≠ "" ∧ "alpha".utf8ByteSize ≤ 128 := by decide

/-- A fresh partition. -/
def alphaPartition : StepPartition :=
  .starting 1 1 1 ⟨"alpha", alpha_fits⟩
    ⟨⟨"partition.state", Eq.refl true⟩, 1, 2, []⟩

/-- A worker that takes a partition and completes it. -/
def alphaCalls : List PartitionCall :=
  [.assign 0 2,
    .complete 1 ⟨.completed, .unknown, .zero⟩ ⟨by decide, by decide⟩]

theorem completed_partition_refuses :
    (runCalls PartitionCall.inPlace alphaPartition alphaCalls).version.val = 2 ∧
      ∃ failure, perform (StepPartition.assignInPlace 2 3)
          (runCalls PartitionCall.inPlace alphaPartition alphaCalls) =
        (.error failure, runCalls PartitionCall.inPlace alphaPartition alphaCalls) :=
  ⟨by decide +kernel, (partition_calls_atomic_iff alphaPartition (.assign 0
    2)).2 _ _ _ _ _ alphaCalls (.inl (by decide +kernel)) _ _⟩

/-- A fresh partition whose version is the last one. -/
def lastVersion : StepPartition := { alphaPartition with version := ⟨u64Limit - 1, by decide⟩ }

/-- The refused worker stays in the partition, which is `STARTED` under its old version. -/
theorem refused_assignment_writes :
    ¬ Atomic lastVersion (.assign ⟨u64Limit - 1, by decide⟩ 2) := by
  rintro (⟨accepted, _⟩ | ⟨failure, same⟩)
  · have refused : (perform (PartitionCall.inPlace
        (.assign ⟨u64Limit - 1, by decide⟩ 2)) lastVersion).1 =
        .error .versionExhausted := by
      rw [perform_inPlace]
      rfl
    cases refused.symm.trans accepted
  · have kept := congrArg (fun result => result.2.status) same
    rw [perform_inPlace] at kept
    cases kept

end Runs

end OxideBatch.Repository
