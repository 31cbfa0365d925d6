import OxideBatch.Repository.World
import OxideBatch.Lib.Program

/-! What the checks of a launch find where they pass. -/

namespace OxideBatch.Repository

open OxideBatch.Core OxideBatch.Plan Program
open Std (ExtTreeMap ExtTreeSet)
open Tables

variable {state state' : MemoryState}

/-- Rows are stored under their own identifiers. -/
structure Keyed (state : MemoryState) : Prop where
  instances : ∀ id (row : JobInstance), state.instancesById[id]? = some row → row.id = id
  executions : ∀ id (row : JobExecution), state.jobExecutions[id]? = some row → row.id = id
  steps : ∀ id (row : StepExecution), state.stepExecutions[id]? = some row → row.id = id

@[simp] theorem require_ok {value : Option α} {error : RepositoryError} {result : α} :
    require value error = .ok result ↔ value = some result := by
  cases value with
  | none => simp [require]
  | some value => simp [require]

@[simp] theorem ensure_ok {condition : Bool} {error : RepositoryError} {result : Unit} :
    ensure condition error = .ok result ↔ condition = true := by
  cases condition with
  | false => simp [ensure]
  | true => simp [ensure]

@[simp] theorem ofLifecycle_ok {α : Type} {answer : Except LifecycleError α} {result : α} :
    ofLifecycle answer = .ok result ↔ answer = .ok result := mapError_ok

theorem Id.following_some {kind : IdentifierKind} {last id : Id kind}
    (next : Id.following (some last) = .ok id) : id.get = last.get + 1 := by
  simp only [Id.following, Id.new] at next
  split at next
  · rename_i valid
    cases next
    simp only [Core.checkedAdd] at valid ⊢
    split at valid
    · rename_i within
      simp [within]
    · simp at valid
  · cases next

/-- The identifier behind the greatest one is not in use. -/
theorem nextId_unused {kind : IdentifierKind} {Value : Type} {table : ExtTreeMap (Id kind) Value}
    {id : Id kind} (next : nextId table.maxKey? = .ok id) : id ∉ table := by
  intro used
  cases greatest : table.maxKey? with
  | none =>
    rw [ExtTreeMap.maxKey?_eq_none_iff] at greatest
    simp [greatest] at used
  | some last =>
    have bound := (ExtTreeMap.maxKey?_eq_some_iff_mem_and_forall.mp greatest).2 id used
    rw [greatest, nextId, mapError_ok] at next
    have within : id.get ≤ last.get := Nat.isLE_compare.mp bound
    rw [Id.following_some next] at within
    exact Nat.not_succ_le_self _ within

theorem instanceForExecution_ok {jobExecutionId : JobExecutionId} {instanceId : JobInstanceId}
    (found : instanceForExecution state jobExecutionId = .ok instanceId) :
    ∃ row, state.jobExecutions[jobExecutionId]? = some row ∧ row.jobInstanceId = instanceId := by
  simp only [instanceForExecution] at found
  split at found
  · rename_i row stored
    cases found
    exact ⟨row, stored, rfl⟩
  · cases found

theorem ensureDefinition_updates {jobName : JobName} {definition : DefinitionIdentity}
    (done : ensureDefinition jobName definition state = .ok ((), state')) :
    ∃ jobNameOrder definitions, state' = { state with jobNameOrder, definitions } := by
  unfold ensureDefinition at done
  split at done
  · simp at done
  · simp only [bind_yields, get_yields, existsAndEq, and_true, true_and] at done
    cases found : state.definitions[(jobName, definition.revision)]? with
    | some existing =>
      simp only [found] at done
      split at done
      · simp at done
      · obtain ⟨_, rfl⟩ := pure_yields.mp done
        exact ⟨_, _, rfl⟩
    | none =>
      simp only [found, modify_yields] at done
      rw [← done]
      unfold MemoryState.registerJobName
      split
      · exact ⟨_, _, rfl⟩
      · exact ⟨_, _, rfl⟩

private theorem checkRestart_ok {instanceId : JobInstanceId} {latest : JobExecution} {answer : Unit}
    (done : checkRestart instanceId latest = .ok answer) :
    latest.status = .stopped ∨ latest.status = .failed := by
  unfold checkRestart at done
  split at done
  · exact .inl ‹_›
  · exact .inr ‹_›
  · cases done
  · cases done
  · cases done

/-- The latest execution is the row of the last one listed. -/
theorem latestJobExecution_ok {instanceId : JobInstanceId} {latest : Option JobExecution}
    (found : latestJobExecution state instanceId = .ok latest)
    {listed : List JobExecutionId} (lists : state.jobExecutionsByInstance[instanceId]? = some listed) :
    latest = listed.getLast?.bind fun id => state.jobExecutions[id]? := by
  unfold latestJobExecution at found
  rw [lists] at found
  cases found
  rfl

theorem nextAttempt_ok {instanceId : JobInstanceId} {attempt : Nat}
    (next : nextAttempt state instanceId = .ok attempt) :
    attempt = state.nextExecutionAttemptByInstance[instanceId]?.getD 0 + 1 := by
  simp only [nextAttempt, require_ok, Core.checkedAdd] at next
  split at next
  · exact (Option.some.inj next).symm
  · cases next

theorem checkLatest_ok {instanceId : JobInstanceId} {jobName : JobName}
    {latest : Option JobExecution} {definition : DefinitionIdentity}
    {upgrade : Option DefinitionUpgradeExecution} {answer : Unit}
    (done : checkLatest state instanceId jobName latest definition upgrade = .ok answer) :
    ∀ row ∈ latest, row.status = .stopped ∨ row.status = .failed := by
  cases latest with
  | none => simp
  | some latest =>
    obtain ⟨_, restarted, _⟩ := bind_ok.mp done
    intro row member
    cases member
    exact checkRestart_ok restarted

end OxideBatch.Repository
