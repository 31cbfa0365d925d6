import Mathlib
import OxideBatch.Repository.Effects
import OxideBatch.Repository.World

/-! The changes an operation consists of. Every operation is a sequence of a few kinds
of change, each with what it was checked against. -/

namespace OxideBatch.Repository

open OxideBatch.Core OxideBatch.Plan Program
open Std (ExtTreeMap ExtTreeSet)
open Tables

section Kinds

/-- How an operation moves the row of a job execution. Only a transition or a new exit
status reaches a finished one. -/
def JobMoves (operation : Operation) (id : JobExecutionId) (before after : JobExecution) : Prop :=
  after = before ∨
  (after.id = before.id ∧ after.jobInstanceId = before.jobInstanceId ∧
    ((isLegalInPlaceTransition before.status after.status = true ∧
        (before.status.isFinished = true →
          ∃ expected transition, operation = .transitionJobExecution id expected transition)) ∨
      (before.status.isFinished = false ∧ after.status.isFinished = true) ∨
      (after.status = before.status ∧
        ∃ expected exitStatus, operation = .enrichJobExitStatus id expected exitStatus)))

/-- A step keeps its name and its execution. -/
def StepMoves (before after : StepExecution) : Prop :=
  after.id = before.id ∧ after.jobExecutionId = before.jobExecutionId

/-- Rows move in place; contexts and partitions of steps may change with them. -/
structure RowsMoved (operation : Operation) (state state' : MemoryState) : Prop where
  jobs : ∀ id : JobExecutionId,
    Option.Rel (JobMoves operation id) state.jobExecutions[id]? state'.jobExecutions[id]?
  steps : ∀ id : StepExecutionId,
    Option.Rel StepMoves state.stepExecutions[id]? state'.stepExecutions[id]?
  core : state'.core = { state.core with
    jobExecutions := state'.jobExecutions
    stepExecutions := state'.stepExecutions
    stepContexts := state'.stepContexts
    stepPartitions := state'.stepPartitions
    stepPartitionsByStep := state'.stepPartitionsByStep }

/-- The child of a new link is stored under the definition and the parameters that
select its instance. -/
structure ChildSelected (link : NestedJobLink) (state : MemoryState) : Prop where
  listed : ∃ listed, state.jobExecutionsByInstance[link.childJobInstanceId]? = some listed ∧
    link.childJobExecutionId ∈ listed
  row : link.childJobExecutionId ∈ state.jobExecutions
  definition : state.executionDefinitions[link.childJobExecutionId]? = some link.childDefinition
  selected : ∃ name parameters, link.childDefinition.jobName = some name ∧
    state.jobParameters[link.childJobExecutionId]? = some parameters ∧
    state.instancesByKey[JobInstanceKey.new name parameters]? = some link.childJobInstanceId

/-- The child that follows the one of a prior link: the same, or a new attempt. -/
structure ChildContinued (prior link : NestedJobLink) (state : MemoryState) : Prop where
  linked : ∃ key : JobExecutionId × NodeId, state.nestedJobLinks[key]? = some prior
  same : link.childDefinition = prior.childDefinition ∧
    link.childJobInstanceId = prior.childJobInstanceId
  parameters : ∃ first second, state.jobParameters[prior.childJobExecutionId]? = some first ∧
    state.jobParameters[link.childJobExecutionId]? = some second ∧ second.toList = first.toList
  child : (link.childJobExecutionId = prior.childJobExecutionId ∧ link.terminal = prior.terminal) ∨
    (link.terminal = none ∧
      state.executionDefinitions[link.childJobExecutionId]? = some link.childDefinition ∧
      link.childJobExecutionId ∈ state.jobExecutions ∧
      ∃ listed, state.jobExecutionsByInstance[link.childJobInstanceId]? = some listed ∧
        link.childJobExecutionId ∈ listed)

/-- One change of the core tables. -/
inductive Change (reader : DefinitionReader) (operation : Operation) :
    MemoryState → MemoryState → Prop where
  | quiet {state state' : MemoryState} (same : SameCore state state') :
      Change reader operation state state'
  | entered {state state' : MemoryState} (added : JobInstance)
      (free : state.instancesByKey[added.key]? = none) (unused : added.id ∉ state.instancesById)
      (core : state'.core = { state.core with
        instancesByKey := state.instancesByKey.insert added.key added.id
        instancesById := state.instancesById.insert added.id added
        jobExecutionsByInstance := state.jobExecutionsByInstance.insert added.id [] }) :
      Change reader operation state state'
  | launched {state state' : MemoryState} {supply : Supply} {instanceId : JobInstanceId}
      {definition : DefinitionIdentity} {upgraded : Bool} {execution : JobExecution}
      (made : Launched supply instanceId definition upgraded state execution state')
      (upgrades : upgraded = true → ∃ upgrade parameters,
        operation = .createJobExecutionWithUpgrade instanceId upgrade parameters) :
      Change reader operation state state'
  | moved {state state' : MemoryState} (rows : RowsMoved operation state state') :
      Change reader operation state state'
  | stepEntered {state state' : MemoryState} {supply : Supply} {jobExecutionId : JobExecutionId}
      {nodeId : NodeId} {startLimit : Nat} {execution : StepExecution}
      (made : StepEntered supply jobExecutionId nodeId startLimit state execution state') :
      Change reader operation state state'
  | decided {state state' : MemoryState} (decision : FlowDecision)
      (unused : decision.id ∉ state.flowDecisions)
      (core : state'.core = { state.core with
        flowDecisions := state.flowDecisions.insert decision.id decision
        flowDecisionsByJob :=
          pushUnder state.flowDecisionsByJob decision.jobExecutionId decision.id }) :
      Change reader operation state state'
  | repeated {state state' : MemoryState} {request : RepeatCommitRequest}
      (same : operation = .commitRepeatIteration request)
      (accepted : commitRepeatIteration reader request state = .ok ((request, true), state')) :
      Change reader operation state state'
  | parametersStored {state state' : MemoryState} {child : JobExecutionId}
      {parameters : JobParameters} (unset : state.jobParameters[child]? = none)
      (core : state'.core = { state.core with
        jobParameters := state.jobParameters.insert child parameters }) :
      Change reader operation state state'
  | linkCreated {state state' : MemoryState} {link : NestedJobLink}
      (free : state.nestedJobLinks[(link.parentJobExecutionId, link.nodeId)]? = none)
      (selected : ChildSelected link state) (unobserved : link.terminal = none)
      (made : state' = insertNestedJobLink link state) : Change reader operation state state'
  | linkContinued {state state' : MemoryState} {prior link : NestedJobLink}
      (free : state.nestedJobLinks[(link.parentJobExecutionId, link.nodeId)]? = none)
      (continued : ChildContinued prior link state)
      (made : state' = insertNestedJobLink link state) : Change reader operation state state'
  | observed {state state' : MemoryState} {parent : JobExecutionId} {nodeId : NodeId}
      {link : NestedJobLink} {child : JobExecution} {observedAt : SystemTime}
      (linked : state.nestedJobLinks[(parent, nodeId)]? = some link)
      (stored : state.jobExecutions[link.childJobExecutionId]? = some child)
      (ended : child.status = .completed ∨ child.status = .failed ∨ child.status = .stopped)
      (core : state'.core = { state.core with
        nestedJobLinks := state.nestedJobLinks.insert (parent, nodeId)
          { link with
            terminal := some ⟨child.status, child.metadata.exitStatus, observedAt⟩ } }) :
      Change reader operation state state'
  | purged {state : MemoryState} {plan : PurgePlan} (same : operation = .applyPurge plan)
      (checked : ∀ candidate ∈ plan.candidates,
        checkCandidate state plan.request candidate = .ok ()) :
      Change reader operation state (purged state plan.candidates)

/-- What an operation does as a whole. -/
abbrev Changes (reader : DefinitionReader) (operation : Operation) :
    MemoryState → MemoryState → Prop :=
  Relation.ReflTransGen (Change reader operation)

end Kinds

section Moves

variable {reader : DefinitionReader} {operation : Operation} {state state' : MemoryState}

theorem JobMoves.refl (id : JobExecutionId) (row : JobExecution) : JobMoves operation id row row :=
  .inl rfl

theorem StepMoves.refl (row : StepExecution) : StepMoves row row := ⟨rfl, rfl⟩

private theorem jobs_still (operation : Operation) (id : JobExecutionId)
    (row : Option JobExecution) :
    Option.Rel (JobMoves operation id) row row := by
  cases row with
  | none => exact .none
  | some row => exact .some (JobMoves.refl id row)

private theorem steps_still (row : Option StepExecution) : Option.Rel StepMoves row row := by
  cases row with
  | none => exact .none
  | some row => exact .some (StepMoves.refl row)

/-- The row of one job execution moves. -/
private theorem jobs_moved {id : JobExecutionId} {before after : JobExecution}
    (stored : state.jobExecutions[id]? = some before) (moves : JobMoves operation id before after)
    (other : JobExecutionId) :
    Option.Rel (JobMoves operation other) state.jobExecutions[other]?
      (state.jobExecutions.insert id after)[other]? := by
  rw [lookup_insert]
  split
  · subst other
    rw [stored]
    exact .some moves
  · exact jobs_still operation other _

/-- The row of one step moves. -/
private theorem steps_moved {id : StepExecutionId} {before after : StepExecution}
    {rows : ExtTreeMap StepExecutionId StepExecution}
    (stored : rows[id]? = some before) (moves : StepMoves before after) (other : StepExecutionId) :
    Option.Rel StepMoves rows[other]? (rows.insert id after)[other]? := by
  rw [lookup_insert]
  split
  · subst other
    rw [stored]
    exact .some moves
  · exact steps_still _

theorem transitionJobExecution_moves {id : JobExecutionId} {expected : ExecutionVersion}
    {transition : LifecycleTransition} {answer : JobExecution}
    (done : transitionJobExecution id expected transition state = .ok (answer, state')) :
    RowsMoved (.transitionJobExecution id expected transition) state state' := by
  simp only [transitionJobExecution, bind_yields, get_yields, lift_yields, require_ok,
    ofLifecycle_ok, modify_yields, pure_yields, existsAndEq, and_true, true_and] at done
  obtain ⟨before, stored, _, moved, _, rfl⟩ := done
  obtain ⟨sameId, sameInstance, legal, status, _⟩ := JobExecution.transition_ok moved
  refine ⟨jobs_moved stored (.inr ⟨sameId, sameInstance, .inl ⟨?_, ?_⟩⟩), fun _ => steps_still _, rfl⟩
  · rw [status]
    exact legal
  · exact fun _ => ⟨expected, transition, rfl⟩

theorem enrichJobExitStatus_moves {id : JobExecutionId} {expected : ExecutionVersion}
    {exitStatus : ExitStatus} {answer : JobExecution}
    (done : enrichJobExitStatus id expected exitStatus state = .ok (answer, state')) :
    RowsMoved (.enrichJobExitStatus id expected exitStatus) state state' := by
  simp only [enrichJobExitStatus, bind_yields, get_yields, lift_yields, require_ok,
    ofLifecycle_ok, modify_yields, pure_yields, existsAndEq, and_true, true_and] at done
  obtain ⟨before, stored, _, moved, _, rfl⟩ := done
  obtain ⟨sameId, sameInstance, status⟩ := JobExecution.enrichExitStatus_ok moved
  exact ⟨jobs_moved stored (.inr ⟨sameId, sameInstance, .inr (.inr ⟨status, expected, exitStatus, rfl⟩)⟩),
    fun _ => steps_still _, rfl⟩

theorem transitionStepExecution_moves {id : StepExecutionId} {expected : ExecutionVersion}
    {transition : LifecycleTransition} {answer : StepExecution}
    (done : transitionStepExecution id expected transition state = .ok (answer, state')) :
    RowsMoved operation state state' := by
  simp only [transitionStepExecution, bind_yields, get_yields, lift_yields, require_ok,
    ofLifecycle_ok, modify_yields, pure_yields, existsAndEq, and_true, true_and] at done
  obtain ⟨before, stored, _, moved, _, rfl⟩ := done
  exact ⟨fun _ => jobs_still _ _ _, steps_moved stored (StepExecution.transition_ok moved), rfl⟩

theorem enrichStepExitStatus_moves {id : StepExecutionId} {expected : ExecutionVersion}
    {exitStatus : ExitStatus} {answer : StepExecution}
    (done : enrichStepExitStatus id expected exitStatus state = .ok (answer, state')) :
    RowsMoved operation state state' := by
  simp only [enrichStepExitStatus, bind_yields, get_yields, lift_yields, require_ok,
    ofLifecycle_ok, modify_yields, pure_yields, existsAndEq, and_true, true_and] at done
  obtain ⟨before, stored, _, moved, _, rfl⟩ := done
  exact ⟨fun _ => jobs_still _ _ _, steps_moved stored (StepExecution.enrichExitStatus_ok moved), rfl⟩

theorem commitStepExecutionContext_moves {id : StepExecutionId} {expected : ExecutionVersion}
    {context : ExecutionContext} {answer : StepExecution}
    (done : commitStepExecutionContext id expected context state = .ok (answer, state')) :
    RowsMoved operation state state' := by
  simp only [commitStepExecutionContext, bind_yields, get_yields, lift_yields, require_ok,
    ofLifecycle_ok, ensure_ok, modify_yields, pure_yields, existsAndEq, and_true, true_and] at done
  obtain ⟨before, stored, _, _, _, _, _, _, _, _, rfl⟩ := done
  exact ⟨fun _ => jobs_still _ _ _, steps_moved stored ⟨rfl, rfl⟩, rfl⟩

theorem observeExecutionControl_moves {id : JobExecutionId} {owner : OwnerToken}
    {observedAt : SystemTime} {answer : ExecutionControl}
    (done : observeExecutionControl id owner observedAt state = .ok (answer, state')) :
    RowsMoved operation state state' := by
  simp only [observeExecutionControl, bind_yields, get_yields, lift_yields, require_ok,
    existsAndEq, and_true, true_and] at done
  obtain ⟨before, stored, done⟩ := done
  split at done
  · rename_i running
    simp only [bind_yields, lift_yields, ofLifecycle_ok, modify_yields, pure_yields, existsAndEq,
      and_true] at done
    obtain ⟨after, moved, _, _, _, rfl⟩ := done
    obtain ⟨sameId, sameInstance, legal, status, _⟩ := JobExecution.transition_ok moved
    have unfinished : before.status.isFinished = false := by
      simp only [Bool.and_eq_true, Bool.or_eq_true, decide_eq_true_eq] at running
      rcases running.2 with starting | started
      · rw [starting]; rfl
      · rw [started]; rfl
    refine ⟨jobs_moved stored (.inr ⟨sameId, sameInstance, .inl ⟨?_, ?_⟩⟩),
      fun _ => steps_still _, rfl⟩
    · rw [status]
      exact legal
    · intro finished
      rw [unfinished] at finished
      cases finished
  · obtain ⟨_, rfl⟩ := pure_yields.mp done
    exact ⟨fun _ => jobs_still _ _ _, fun _ => steps_still _, rfl⟩

private theorem recoveredMetadata_ok {prior after : ExecutionMetadata} {request : RecoveryRequest}
    {decidedAt : SystemTime} (made : recoveredMetadata prior request decidedAt = .ok after) :
    after.status = request.disposition.resultingStatus := by
  simp only [recoveredMetadata, bind_ok, mapError_ok] at made
  obtain ⟨timestamps, _, made⟩ := made
  exact (ExecutionMetadata.new_ok made).1

private theorem recoveredExecution_ok {prior after : JobExecution} {request : RecoveryRequest}
    {decidedAt : SystemTime} (made : recoveredExecution prior request decidedAt = .ok after) :
    after.id = prior.id ∧ after.jobInstanceId = prior.jobInstanceId ∧
      prior.status.isFinished = false ∧ after.status.isFinished = true := by
  simp only [recoveredExecution, bind_ok, ofLifecycle_ok, ensure_ok, pure_ok] at made
  obtain ⟨_, _, _, unfinished, metadata, recovered, version, _, rfl⟩ := made
  refine ⟨rfl, rfl, by simpa using unfinished, ?_⟩
  change metadata.status.isFinished = true
  rw [recoveredMetadata_ok recovered]
  cases request.disposition <;> rfl

private theorem recoveredStepExecution_ok {prior after : StepExecution} {request : RecoveryRequest}
    {decidedAt : SystemTime}
    (made : recoveredStepExecution prior request decidedAt = .ok (some after)) :
    StepMoves prior after := by
  unfold recoveredStepExecution at made
  split at made
  · cases made
  · simp only [bind_ok, ofLifecycle_ok, pure_ok, Option.some.injEq] at made
    obtain ⟨_, _, _, _, rfl⟩ := made
    exact ⟨rfl, rfl⟩

/-- A recovered child has the row of the step it closes. -/
private theorem recoveredChildren_ok {id : JobExecutionId} {request : RecoveryRequest}
    {decidedAt : SystemTime} {children : List StepExecution}
    (keyed : Keyed state)
    (made : recoveredChildren state id request decidedAt = .ok children) :
    ∀ child ∈ children, ∃ prior, state.stepExecutions[child.id]? = some prior ∧
      StepMoves prior child := by
  simp only [recoveredChildren, bind_ok, pure_ok] at made
  obtain ⟨results, mapped, rfl⟩ := made
  intro child member
  obtain ⟨result, held, same⟩ := List.mem_filterMap.mp member
  obtain ⟨childId, _, answered⟩ := mapM_member (mapM_ok mapped) held
  simp only [bind_ok, require_ok] at answered
  obtain ⟨prior, stored, recovered⟩ := answered
  subst same
  have moves := recoveredStepExecution_ok recovered
  refine ⟨prior, ?_, moves⟩
  rw [moves.1, keyed.steps _ _ stored]
  exact stored

/-- Rows stored one after the other, each over the row it moves. -/
private theorem steps_insertAll {rows table : ExtTreeMap StepExecutionId StepExecution}
    {children : List StepExecution}
    (before : ∀ id : StepExecutionId, Option.Rel StepMoves rows[id]? table[id]?)
    (moves : ∀ child ∈ children, ∃ prior, rows[child.id]? = some prior ∧ StepMoves prior child)
    (other : StepExecutionId) :
    Option.Rel StepMoves rows[other]?
      (children.foldl (fun table child => table.insert child.id child) table)[other]? := by
  induction children generalizing table with
  | nil => exact before other
  | cons child children ih =>
    rw [List.foldl_cons]
    refine ih (fun id => ?_) fun later member => moves later (List.mem_cons_of_mem _ member)
    rw [lookup_insert]
    split
    · subst id
      obtain ⟨prior, stored, moved⟩ := moves child List.mem_cons_self
      rw [stored]
      exact .some moved
    · exact before id

theorem recoverJobExecution_moves {supply : Supply} {id : JobExecutionId}
    {request : RecoveryRequest} {answer : JobExecution × RecoveryDecision} (keyed : Keyed state)
    (done : recoverJobExecution supply id request state = .ok (answer, state')) :
    RowsMoved operation state state' := by
  simp only [recoverJobExecution, bind_yields, get_yields, lift_yields, require_ok, ensure_ok,
    modify_yields, pure_yields, existsAndEq, and_true, true_and] at done
  obtain ⟨prior, stored, _, _, recovered, made, children, closed, _, _, _, _, rfl⟩ := done
  obtain ⟨sameId, sameInstance, unfinished, finished⟩ := recoveredExecution_ok made
  refine ⟨jobs_moved stored (.inr ⟨sameId, sameInstance, .inr (.inl ⟨unfinished, finished⟩)⟩),
    steps_insertAll (fun _ => steps_still _) (recoveredChildren_ok keyed closed), rfl⟩

end Moves

section Partitions

variable {reader : DefinitionReader} {operation : Operation} {state state' : MemoryState}

/-- A change of the partition tables only. -/
def PartitionsMoved (state state' : MemoryState) : Prop :=
  state'.core = { state.core with
    stepPartitions := state'.stepPartitions
    stepPartitionsByStep := state'.stepPartitionsByStep }

theorem PartitionsMoved.refl (state : MemoryState) : PartitionsMoved state state := rfl

theorem PartitionsMoved.trans {first second third : MemoryState}
    (one : PartitionsMoved first second) (two : PartitionsMoved second third) :
    PartitionsMoved first third := by
  unfold PartitionsMoved at one two ⊢
  rw [two, one]

theorem PartitionsMoved.rows (moved : PartitionsMoved state state') :
    RowsMoved operation state state' := by
  have jobs : state'.jobExecutions = _ := congrArg CoreTables.jobExecutions moved
  have steps : state'.stepExecutions = _ := congrArg CoreTables.stepExecutions moved
  have contexts : state'.stepContexts = _ := congrArg CoreTables.stepContexts moved
  refine ⟨fun id => ?_, fun id => ?_, ?_⟩
  · rw [jobs]
    exact jobs_still _ _ _
  · rw [steps]
    exact steps_still _
  · rw [moved, jobs, steps, contexts]

private theorem storePartition_keeps {build : StepPartitionId → StepPartition} :
    Keeps PartitionsMoved (storePartition build) := by
  intro state answer state' done
  simp only [storePartition, bind_yields, get_yields, lift_yields, modify_yields, pure_yields,
    existsAndEq, and_true, true_and] at done
  obtain ⟨_, _, _, _, rfl⟩ := done
  rfl

private theorem listPlan_keeps {stepExecutionId : StepExecutionId}
    {partitions : List StepPartition} :
    Keeps PartitionsMoved (listPlan stepExecutionId partitions) :=
  Keeps.modify fun _ => rfl

theorem Keeps.mapM {α β : Type} {body : α → StagedM β}
    (once : ∀ value, Keeps PartitionsMoved (body value)) (values : List α) :
    Keeps PartitionsMoved (values.mapM body) := by
  induction values with
  | nil => exact Keeps.pure PartitionsMoved.refl _
  | cons value values ih =>
    rw [List.mapM_cons]
    exact Keeps.bind @PartitionsMoved.trans (once value) fun _ =>
      Keeps.bind @PartitionsMoved.trans ih fun _ => Keeps.pure PartitionsMoved.refl _

theorem createStepPartitionPlan_keeps {stepExecutionId : StepExecutionId}
    {entries : List PartitionPlanEntry} :
    Keeps PartitionsMoved (createStepPartitionPlan stepExecutionId entries) := by
  refine Keeps.bind @PartitionsMoved.trans (Keeps.get PartitionsMoved.refl) fun _ => ?_
  iterate 6
    refine Keeps.bind @PartitionsMoved.trans (Keeps.lift PartitionsMoved.refl _) fun _ => ?_
  refine Keeps.bind @PartitionsMoved.trans (Keeps.mapM (fun _ => storePartition_keeps) _)
    fun _ => ?_
  exact Keeps.bind @PartitionsMoved.trans listPlan_keeps fun _ => Keeps.pure PartitionsMoved.refl _

private theorem restartPartition_keeps {target : StepExecutionId} {source : StepPartition} :
    Keeps PartitionsMoved (restartPartition target source) := by
  unfold restartPartition
  split
  · exact Keeps.bind @PartitionsMoved.trans (Keeps.lift PartitionsMoved.refl _) fun _ =>
      storePartition_keeps
  · exact Keeps.bind @PartitionsMoved.trans (Keeps.lift PartitionsMoved.refl _) fun _ =>
      storePartition_keeps

theorem restartStepPartitionPlan_keeps {source target : StepExecutionId} :
    Keeps PartitionsMoved (restartStepPartitionPlan source target) := by
  refine Keeps.bind @PartitionsMoved.trans (Keeps.get PartitionsMoved.refl) fun _ => ?_
  iterate 7
    refine Keeps.bind @PartitionsMoved.trans (Keeps.lift PartitionsMoved.refl _) fun _ => ?_
  refine Keeps.bind @PartitionsMoved.trans (Keeps.mapM (fun _ => ?_) _) fun _ => ?_
  · refine Keeps.bind @PartitionsMoved.trans (Keeps.get PartitionsMoved.refl) fun _ => ?_
    exact Keeps.bind @PartitionsMoved.trans (Keeps.lift PartitionsMoved.refl _) fun _ =>
      restartPartition_keeps
  · exact Keeps.bind @PartitionsMoved.trans listPlan_keeps fun _ =>
      Keeps.pure PartitionsMoved.refl _

theorem assignStepPartition_keeps {createdPlans : ExtTreeSet StepExecutionId}
    {id : StepPartitionId} {expected : ExecutionVersion} {worker : StepExecutionId} :
    Keeps PartitionsMoved (assignStepPartition createdPlans id expected worker) := by
  refine Keeps.bind @PartitionsMoved.trans (Keeps.get PartitionsMoved.refl) fun _ => ?_
  iterate 8
    refine Keeps.bind @PartitionsMoved.trans (Keeps.lift PartitionsMoved.refl _) fun _ => ?_
  exact Keeps.bind @PartitionsMoved.trans (Keeps.modify fun _ => rfl) fun _ =>
    Keeps.pure PartitionsMoved.refl _

theorem completeStepPartition_keeps {id : StepPartitionId} {expected : ExecutionVersion}
    {worker : StepExecutionId} :
    Keeps PartitionsMoved (completeStepPartition id expected worker) := by
  refine Keeps.bind @PartitionsMoved.trans (Keeps.get PartitionsMoved.refl) fun _ => ?_
  iterate 8
    refine Keeps.bind @PartitionsMoved.trans (Keeps.lift PartitionsMoved.refl _) fun _ => ?_
  exact Keeps.bind @PartitionsMoved.trans (Keeps.modify fun _ => rfl) fun _ =>
    Keeps.pure PartitionsMoved.refl _

private theorem aggregatePartitionParent_ok {parent after : StepExecution}
    {expected : ExecutionVersion}
    {aggregate : PartitionAggregate} {transitionedAt : SystemTime}
    {failure : Option FailureSummary}
    (made : aggregatePartitionParent parent expected aggregate transitionedAt failure = .ok after) :
    StepMoves parent after := by
  unfold aggregatePartitionParent at made
  split at made
  · simp only [bind_ok, require_ok, ofLifecycle_ok, mapError_ok, pure_ok, existsAndEq,
      true_and] at made
    obtain ⟨_, _, moved, transitioned, metadata, _, rfl⟩ := made
    exact (StepExecution.transition_ok transitioned :)
  · simp only [bind_ok, ofLifecycle_ok, mapError_ok, pure_ok, existsAndEq, true_and] at made
    obtain ⟨moved, transitioned, metadata, _, rfl⟩ := made
    exact (StepExecution.transition_ok transitioned :)

theorem aggregateStepPartitions_moves {stepExecutionId : StepExecutionId}
    {expected : ExecutionVersion} {transitionedAt : SystemTime} {answer : StepExecution × Bool}
    (done : aggregateStepPartitions stepExecutionId expected transitionedAt state =
      .ok (answer, state')) : RowsMoved operation state state' := by
  simp only [aggregateStepPartitions, bind_yields, get_yields, lift_yields, mapError_ok,
    require_ok, existsAndEq, and_true, true_and] at done
  obtain ⟨_, _, _, _, _, middle, agreed, parent, stored, _, _, done⟩ := done
  have same : state = middle := by
    refine Keeps.forM (fun _ => rfl) Eq.trans (fun partition => ?_) _ _ _ _ agreed
    exact Keeps.lift (fun _ => rfl) _
  subst same
  split at done
  · obtain ⟨_, rfl⟩ := pure_yields.mp done
    exact (PartitionsMoved.refl _).rows
  · simp only [bind_yields, lift_yields, ensure_ok, modify_yields, pure_yields, existsAndEq,
      and_true, true_and] at done
    obtain ⟨_, _, after, made, _, _, rfl⟩ := done
    exact ⟨fun _ => jobs_still _ _ _, steps_moved stored (aggregatePartitionParent_ok made), rfl⟩

end Partitions

section Quiet

variable {state state' : MemoryState}

theorem registerDefinition_quiet {registration : DefinitionRegistration} :
    Keeps SameCore (registerDefinition registration) := by
  refine Keeps.bind @SameCore.trans ensureDefinition_quiet fun _ => ?_
  refine Keeps.bind @SameCore.trans (Keeps.get SameCore.refl) fun _ => ?_
  split
  · split
    · exact Keeps.throw _
    · split
      · exact Keeps.throw _
      · exact Keeps.pure SameCore.refl _
  · exact Keeps.bind @SameCore.trans (Keeps.modify fun _ => rfl) fun _ =>
      Keeps.pure SameCore.refl _

theorem registerDefinitionUpgrade_quiet {jobName : JobName} {upgrade : DefinitionUpgrade} :
    Keeps SameCore (registerDefinitionUpgrade jobName upgrade) := by
  refine Keeps.bind @SameCore.trans ensureDefinition_quiet fun _ => ?_
  refine Keeps.bind @SameCore.trans ensureDefinition_quiet fun _ => ?_
  refine Keeps.bind @SameCore.trans (Keeps.get SameCore.refl) fun _ => ?_
  split
  · split
    · exact Keeps.throw _
    · exact Keeps.pure SameCore.refl _
  · exact Keeps.modify fun _ => rfl

theorem stageForkJobContext_quiet {target : JobExecutionId} {context : ExecutionContext} :
    Keeps SameCore (stageForkJobContext target context) := by
  refine Keeps.bind @SameCore.trans (Keeps.get SameCore.refl) fun _ => ?_
  iterate 2
    refine Keeps.bind @SameCore.trans (Keeps.lift SameCore.refl _) fun _ => ?_
  exact Keeps.modify fun _ => rfl

theorem appendForkLineage_quiet {reader : DefinitionReader} {lineage : ForkLineage} :
    Keeps SameCore (appendForkLineage reader lineage) := by
  refine Keeps.bind @SameCore.trans (Keeps.get SameCore.refl) fun _ => ?_
  iterate 4
    refine Keeps.bind @SameCore.trans (Keeps.lift SameCore.refl _) fun _ => ?_
  exact Keeps.modify fun _ => rfl

theorem appendOperatorRequest_quiet {draft : OperatorRecordDraft} :
    Keeps SameCore (appendOperatorRequest draft) := by
  refine Keeps.bind @SameCore.trans (Keeps.get SameCore.refl) fun _ => ?_
  iterate 2
    refine Keeps.bind @SameCore.trans (Keeps.lift SameCore.refl _) fun _ => ?_
  exact Keeps.bind @SameCore.trans (Keeps.modify fun _ => rfl) fun _ => Keeps.pure SameCore.refl _

theorem requestExecutionStop_quiet {id : JobExecutionId} {expected : ExecutionVersion}
    {requestedAt : SystemTime} : Keeps SameCore (requestExecutionStop id expected requestedAt) := by
  refine Keeps.bind @SameCore.trans (Keeps.get SameCore.refl) fun _ => ?_
  iterate 2
    refine Keeps.bind @SameCore.trans (Keeps.lift SameCore.refl _) fun _ => ?_
  exact Keeps.bind @SameCore.trans (Keeps.modify fun _ => rfl) fun _ => Keeps.pure SameCore.refl _

theorem claimExecutionOwner_quiet {id : JobExecutionId} {expected : ExecutionVersion}
    {owner : OwnerToken} {claimedAt : SystemTime} :
    Keeps SameCore (claimExecutionOwner id expected owner claimedAt) := by
  refine Keeps.bind @SameCore.trans (Keeps.get SameCore.refl) fun _ => ?_
  iterate 4
    refine Keeps.bind @SameCore.trans (Keeps.lift SameCore.refl _) fun _ => ?_
  exact Keeps.bind @SameCore.trans (Keeps.modify fun _ => rfl) fun _ => Keeps.pure SameCore.refl _

theorem placeInstanceHold_quiet {id : JobInstanceId} {actor : ActorRef} {reason : ReasonCode}
    {placedAt : SystemTime} : Keeps SameCore (placeInstanceHold id actor reason placedAt) := by
  refine Keeps.bind @SameCore.trans (Keeps.get SameCore.refl) fun _ => ?_
  refine Keeps.bind @SameCore.trans (Keeps.lift SameCore.refl _) fun _ => ?_
  exact Keeps.bind @SameCore.trans (Keeps.modify fun _ => rfl) fun _ => Keeps.pure SameCore.refl _

theorem releaseInstanceHold_quiet {id : JobInstanceId} :
    Keeps SameCore (releaseInstanceHold id) := by
  refine Keeps.bind @SameCore.trans (Keeps.get SameCore.refl) fun _ => ?_
  refine Keeps.bind @SameCore.trans (Keeps.lift SameCore.refl _) fun _ => ?_
  exact Keeps.bind @SameCore.trans (Keeps.modify fun _ => rfl) fun _ => Keeps.pure SameCore.refl _

theorem appendRetentionAction_quiet {draft : RetentionRecordDraft} :
    Keeps SameCore (appendRetentionAction draft) := by
  refine Keeps.bind @SameCore.trans (Keeps.get SameCore.refl) fun _ => ?_
  iterate 2
    refine Keeps.bind @SameCore.trans (Keeps.lift SameCore.refl _) fun _ => ?_
  exact Keeps.bind @SameCore.trans (Keeps.modify fun _ => rfl) fun _ => Keeps.pure SameCore.refl _

end Quiet

section Repeats

variable {reader : DefinitionReader} {state state' : MemoryState}

/-- An iteration that is recorded changes its one record. -/
theorem commitRepeatIteration_effect {request : RepeatCommitRequest}
    {answer : RepeatExecution × Bool}
    (done : commitRepeatIteration reader request state = .ok (answer, state')) :
    (state' = state ∧ answer.2 = false) ∨
    (answer = (request, true) ∧ state' = { state with
      repeatExecutions :=
        state.repeatExecutions.insert (request.stepExecutionId, request.repeatId) request }) := by
  have recorded : ∀ {before : MemoryState},
      recordIteration request before = .ok (answer, state') →
      answer = (request, true) ∧ state' = { before with
        repeatExecutions :=
          before.repeatExecutions.insert (request.stepExecutionId, request.repeatId) request } := by
    intro before done
    simp only [recordIteration, bind_yields, modify_yields, pure_yields, existsAndEq,
      true_and] at done
    obtain ⟨_, rfl, rfl⟩ := done
    exact ⟨rfl, rfl⟩
  simp only [commitRepeatIteration, bind_yields, get_yields, lift_yields, existsAndEq, and_true,
    true_and] at done
  obtain ⟨_, _, done⟩ := done
  cases held : state.repeatExecutions[(request.stepExecutionId, request.repeatId)]?.filter
      (·.lineage = request.lineage) with
  | some existing =>
    simp only [held] at done
    split at done
    · obtain ⟨rfl, rfl⟩ := pure_yields.mp done
      exact .inl ⟨rfl, rfl⟩
    · simp only [bind_yields, lift_yields, existsAndEq, and_true] at done
      obtain ⟨_, _, _, _, _, _, _, _, done⟩ := done
      exact .inr (recorded done)
  | none =>
    simp only [held, bind_yields, lift_yields, existsAndEq, and_true] at done
    obtain ⟨_, _, _, _, _, _, done⟩ := done
    exact .inr (recorded done)

theorem repeatRecorded_core {request : RepeatCommitRequest}
    (accepted : commitRepeatIteration reader request state = .ok ((request, true), state')) :
    state'.core = { state.core with
      repeatExecutions :=
        state.repeatExecutions.insert (request.stepExecutionId, request.repeatId) request } := by
  rcases commitRepeatIteration_effect accepted with ⟨_, replayed⟩ | ⟨_, rfl⟩
  · cases replayed
  · rfl

end Repeats

section Keyed

variable {reader : DefinitionReader} {operation : Operation} {state state' : MemoryState}

theorem Keyed.congr (keyed : Keyed state) (instances : state'.instancesById = state.instancesById)
    (executions : state'.jobExecutions = state.jobExecutions)
    (steps : state'.stepExecutions = state.stepExecutions) : Keyed state' := by
  refine ⟨?_, ?_, ?_⟩
  · rw [instances]
    exact keyed.instances
  · rw [executions]
    exact keyed.executions
  · rw [steps]
    exact keyed.steps

theorem Keyed.same (keyed : Keyed state) (same : SameCore state state') : Keyed state' :=
  keyed.congr (congrArg CoreTables.instancesById same) (congrArg CoreTables.jobExecutions same)
    (congrArg CoreTables.stepExecutions same)

private theorem keyed_erased (keyed : Keyed state)
    (instances : ∀ (id : JobInstanceId) (row : JobInstance),
      state'.instancesById[id]? = some row → state.instancesById[id]? = some row)
    (executions : ∀ (id : JobExecutionId) (row : JobExecution),
      state'.jobExecutions[id]? = some row → state.jobExecutions[id]? = some row)
    (steps : ∀ (id : StepExecutionId) (row : StepExecution),
      state'.stepExecutions[id]? = some row → state.stepExecutions[id]? = some row) :
    Keyed state' :=
  ⟨fun id row found => keyed.instances id row (instances id row found),
    fun id row found => keyed.executions id row (executions id row found),
    fun id row found => keyed.steps id row (steps id row found)⟩

private theorem lookup_erase_some {Key Value : Type} [Ord Key] [Std.TransOrd Key]
    [Std.LawfulEqOrd Key]
    [DecidableEq Key] {table : ExtTreeMap Key Value} {key other : Key} {value : Value}
    (found : (table.erase key)[other]? = some value) : table[other]? = some value := by
  rw [lookup_erase] at found
  split at found
  · cases found
  · exact found

private theorem keyed_removeStepExecution (keyed : Keyed state) (id : StepExecutionId) :
    Keyed (removeStepExecution state id) :=
  keyed_erased keyed (fun _ _ found => found) (fun _ _ found => found)
    fun _ _ found => lookup_erase_some found

private theorem keyed_purgeCandidate (keyed : Keyed state) (candidate : PurgeCandidate) :
    Keyed (purgeCandidate state candidate) := by
  have steps : ∀ (ids : List StepExecutionId) (state : MemoryState), Keyed state →
      Keyed (ids.foldl removeStepExecution state) := by
    intro ids
    induction ids with
    | nil => exact fun _ keyed => keyed
    | cons id ids ih => exact fun state keyed => ih _ (keyed_removeStepExecution keyed id)
  have removed : Keyed (removeStepExecutions (removeOperatorRequests
      { removeFlowDecisions state candidate.jobExecutionId with
        recoveryDecisions := state.recoveryDecisions.erase candidate.jobExecutionId }
      candidate.jobExecutionId) candidate.jobExecutionId) :=
    steps _ _ (keyed.congr rfl rfl rfl)
  exact keyed_erased removed (fun _ _ found => found)
    (fun _ _ found => lookup_erase_some found) fun _ _ found => found

private theorem keyed_purgeInstance (keyed : Keyed state) (id : JobInstanceId) :
    Keyed (purgeInstance state id) := by
  unfold purgeInstance
  split
  · split
    · exact keyed
    · exact keyed_erased keyed (fun _ _ found => lookup_erase_some found) (fun _ _ found => found)
        fun _ _ found => found
  · exact keyed

private theorem keyed_purged (keyed : Keyed state) (candidates : List PurgeCandidate) :
    Keyed (purged state candidates) := by
  have rows : Keyed (candidates.foldl purgeCandidate state) := by
    induction candidates generalizing state with
    | nil => exact keyed
    | cons candidate candidates ih => exact ih (keyed_purgeCandidate keyed candidate)
  unfold purged
  generalize dedupNeighbours (candidates.map (·.jobInstanceId)) = instances
  generalize candidates.foldl purgeCandidate state = before at rows
  induction instances generalizing before with
  | nil => exact rows
  | cons id instances ih => exact ih _ (keyed_purgeInstance rows id)

theorem JobMoves.id {id : JobExecutionId} {before after : JobExecution}
    (moves : JobMoves operation id before after) : after.id = before.id := by
  rcases moves with rfl | ⟨same, _⟩
  · rfl
  · exact same

theorem RowsMoved.keyed (moved : RowsMoved operation state state') (keyed : Keyed state) :
    Keyed state' := by
  have instances : state'.instancesById = _ := congrArg CoreTables.instancesById moved.core
  refine ⟨?_, ?_, ?_⟩
  · rw [instances]
    exact keyed.instances
  · intro id row found
    have moves := moved.jobs id
    rw [found] at moves
    cases stored : state.jobExecutions[id]? with
    | none =>
      rw [stored] at moves
      cases moves
    | some before =>
      rw [stored] at moves
      cases moves with
      | some moves => exact moves.id.trans (keyed.executions id before stored)
  · intro id row found
    have moves := moved.steps id
    rw [found] at moves
    cases stored : state.stepExecutions[id]? with
    | none =>
      rw [stored] at moves
      cases moves
    | some before =>
      rw [stored] at moves
      cases moves with
      | some moves => exact moves.1.trans (keyed.steps id before stored)

private theorem keyed_core {tables : CoreTables} (core : state'.core = tables)
    (instances : ∀ (id : JobInstanceId) (row : JobInstance),
      tables.instancesById[id]? = some row → row.id = id)
    (executions : ∀ (id : JobExecutionId) (row : JobExecution),
      tables.jobExecutions[id]? = some row → row.id = id)
    (steps : ∀ (id : StepExecutionId) (row : StepExecution),
      tables.stepExecutions[id]? = some row → row.id = id) : Keyed state' := by
  subst core
  exact ⟨instances, executions, steps⟩

/-- A table of rows under their names stays one when a row is stored under its name. -/
private theorem named_insert {Key Row : Type} [Ord Key] [Std.TransOrd Key] [Std.LawfulEqOrd Key]
    [DecidableEq Key] {name : Row → Key} {table : ExtTreeMap Key Row} {row : Row}
    (named : ∀ (id : Key) (row : Row), table[id]? = some row → name row = id) (id : Key)
    (other : Row) (found : (table.insert (name row) row)[id]? = some other) : name other = id := by
  rcases lookup_insert_cases found with ⟨rfl, rfl⟩ | ⟨_, before⟩
  · rfl
  · exact named id other before

theorem Change.keyed (change : Change reader operation state state') (keyed : Keyed state) :
    Keyed state' := by
  cases change with
  | quiet same => exact keyed.same same
  | entered added free unused core =>
    exact keyed_core core (named_insert keyed.instances) keyed.executions keyed.steps
  | launched made upgrades =>
    obtain ⟨_, _, _, _, _, _, _, _, core⟩ := made.tables
    exact keyed_core core keyed.instances (named_insert keyed.executions) keyed.steps
  | moved rows => exact rows.keyed keyed
  | stepEntered made =>
    obtain ⟨_, _, _, _, _, core⟩ := made.tables
    exact keyed_core core keyed.instances keyed.executions (named_insert keyed.steps)
  | decided decision unused core =>
    exact keyed_core core keyed.instances keyed.executions keyed.steps
  | repeated same accepted =>
    exact keyed_core (repeatRecorded_core accepted) keyed.instances keyed.executions keyed.steps
  | parametersStored unset core =>
    exact keyed_core core keyed.instances keyed.executions keyed.steps
  | linkCreated free selected unobserved made => exact made ▸ keyed.congr rfl rfl rfl
  | linkContinued free continued made => exact made ▸ keyed.congr rfl rfl rfl
  | observed linked stored ended core =>
    exact keyed_core core keyed.instances keyed.executions keyed.steps
  | purged same checked => exact keyed_purged keyed _

theorem Changes.keyed (changes : Changes reader operation state state') (keyed : Keyed state) :
    Keyed state' := by
  induction changes with
  | refl => exact keyed
  | tail _ change ih => exact change.keyed ih

end Keyed

section Links

variable {reader : DefinitionReader} {operation : Operation} {supply : Supply}
  {state state' : MemoryState}

/-- What a launch leaves of its attempt. -/
theorem Launched.stored {instanceId : JobInstanceId} {definition : DefinitionIdentity}
    {upgraded : Bool} {execution : JobExecution}
    (launched : Launched supply instanceId definition upgraded state execution state') :
    execution.id ∈ state'.jobExecutions ∧
      state'.executionDefinitions[execution.id]? = some definition ∧
      ∃ listed, state'.jobExecutionsByInstance[instanceId]? = some listed ∧
        execution.id ∈ listed := by
  obtain ⟨listed, _, _, _, _, _, _, _, core⟩ := launched.tables
  have rows : state'.jobExecutions = _ := congrArg CoreTables.jobExecutions core
  have definitions : state'.executionDefinitions = _ :=
    congrArg CoreTables.executionDefinitions core
  have lists : state'.jobExecutionsByInstance = _ :=
    congrArg CoreTables.jobExecutionsByInstance core
  refine ⟨?_, ?_, listed ++ [execution.id], ?_, by simp⟩
  · rw [rows]
    simp
  · rw [definitions, lookup_insert, if_pos rfl]
  · rw [lists, lookup_insert, if_pos rfl]

/-- The parameters of a child are stored, and were unset or the same. -/
theorem storeNestedJobParameters_effect {child : JobExecutionId} {parameters : JobParameters}
    {answer : Unit}
    (done : storeNestedJobParameters child parameters state = .ok (answer, state')) :
    (∃ held, state'.jobParameters[child]? = some held ∧ held.toList = parameters.toList) ∧
      (state' = state ∨ (state.jobParameters[child]? = none ∧
        state' = { state with jobParameters := state.jobParameters.insert child parameters })) := by
  simp only [storeNestedJobParameters, bind_yields, get_yields, existsAndEq, and_true,
    true_and] at done
  cases held : state.jobParameters[child]? with
  | some existing =>
    simp only [held, lift_yields, ensure_ok] at done
    obtain ⟨same, rfl⟩ := done
    exact ⟨⟨existing, held, of_decide_eq_true same⟩, .inl rfl⟩
  | none =>
    simp only [held, modify_yields] at done
    subst done
    refine ⟨⟨parameters, ?_, rfl⟩, .inr ⟨rfl, rfl⟩⟩
    rw [lookup_insert, if_pos rfl]

private theorem storeNestedJobParameters_changes {child : JobExecutionId}
    {parameters : JobParameters}
    {answer : Unit}
    (done : storeNestedJobParameters child parameters state = .ok (answer, state')) :
    Changes reader operation state state' := by
  obtain ⟨_, rfl | ⟨unset, rfl⟩⟩ := storeNestedJobParameters_effect done
  · exact .refl
  · exact .single (.parametersStored unset rfl)

theorem selectOrCreateJobInstance_changes (reader : DefinitionReader) (operation : Operation)
    {key : JobInstanceKey} {answer : JobInstance} (keyed : Keyed state)
    (done : selectOrCreateJobInstance supply key state = .ok (answer, state')) :
    Changes reader operation state state' ∧ state'.instancesByKey[key]? = some answer.id := by
  rcases selectOrCreateJobInstance_effect done with ⟨rfl, id, found, stored⟩ | ⟨rfl, free, unused, core⟩
  · rw [keyed.instances id answer stored]
    exact ⟨.refl, found⟩
  · refine ⟨.single (.entered answer free unused core), ?_⟩
    have keys : state'.instancesByKey = _ := congrArg CoreTables.instancesByKey core
    rw [keys, lookup_insert, if_pos rfl]

/-- The child a create selects is listed under its instance and runs the definition. -/
structure ChildStands (child : JobExecutionId) (instanceId : JobInstanceId)
    (definition : DefinitionIdentity) (state : MemoryState) : Prop where
  listed : ∃ listed, state.jobExecutionsByInstance[instanceId]? = some listed ∧ child ∈ listed
  row : child ∈ state.jobExecutions
  definition : state.executionDefinitions[child]? = some definition

theorem Launched.stands {instanceId : JobInstanceId} {definition : DefinitionIdentity}
    {upgraded : Bool} {execution : JobExecution}
    (launched : Launched supply instanceId definition upgraded state execution state') :
    ChildStands execution.id instanceId definition state' :=
  ⟨launched.stored.2.2, launched.stored.1, launched.stored.2.1⟩

/-- The latest execution is the last one listed. -/
private theorem latestJobExecution_some {instanceId : JobInstanceId} {latest : JobExecution}
    (keyed : Keyed state) (found : latestJobExecution state instanceId = .ok (some latest)) :
    ∃ listed, state.jobExecutionsByInstance[instanceId]? = some listed ∧
      listed.getLast? = some latest.id ∧ state.jobExecutions[latest.id]? = some latest := by
  unfold latestJobExecution at found
  split at found
  · split at found <;> cases found
  · rename_i listed lists
    simp only [Except.ok.injEq, Option.bind_eq_some_iff] at found
    obtain ⟨id, last, stored⟩ := found
    obtain rfl := keyed.executions id latest stored
    exact ⟨listed, lists, last, stored⟩

theorem reuseChildExecution_effect {request : NestedJobLinkRequest}
    {instanceId : JobInstanceId} {latest child : JobExecution} (keyed : Keyed state)
    (found : latestJobExecution state instanceId = .ok (some latest))
    (done : reuseChildExecution supply request instanceId latest state = .ok (child, state')) :
    (state' = state ∧ ChildStands child.id instanceId request.childDefinition state ∧
      latest.status = .completed ∧ child = latest) ∨
    Launched supply instanceId request.childDefinition false state child state' := by
  simp only [reuseChildExecution, bind_yields, get_yields, lift_yields, require_ok, ensure_ok,
    existsAndEq, and_true, true_and] at done
  obtain ⟨definition, defined, _, same, done⟩ := done
  obtain ⟨listed, lists, last, stored⟩ := latestJobExecution_some keyed found
  have same : definition = request.childDefinition := of_decide_eq_true same
  cases status : latest.status with
  | completed =>
    simp only [status, bind_yields, lift_yields, require_ok, ensure_ok, pure_yields, existsAndEq,
      and_true] at done
    obtain ⟨_, _, _, _, rfl, rfl⟩ := done
    exact .inl ⟨rfl, ⟨⟨listed, lists, List.mem_of_getLast? last⟩, mem_of_lookup stored,
      same ▸ defined⟩, rfl, rfl⟩
  | failed =>
    simp only [status] at done
    exact .inr (createJobExecution_effect done)
  | stopped =>
    simp only [status] at done
    exact .inr (createJobExecution_effect done)
  | starting | started | stopping | unknown | abandoned => simp [status] at done

theorem Launched.links {instanceId : JobInstanceId} {definition : DefinitionIdentity}
    {upgraded : Bool} {execution : JobExecution}
    (launched : Launched supply instanceId definition upgraded state execution state') :
    state'.nestedJobLinks = state.nestedJobLinks := by
  obtain ⟨_, _, _, _, _, _, _, _, core⟩ := launched.tables
  exact congrArg CoreTables.nestedJobLinks core

theorem Launched.keys {instanceId : JobInstanceId} {definition : DefinitionIdentity}
    {upgraded : Bool} {execution : JobExecution}
    (launched : Launched supply instanceId definition upgraded state execution state') :
    state'.instancesByKey = state.instancesByKey := by
  obtain ⟨_, _, _, _, _, _, _, _, core⟩ := launched.tables
  exact congrArg CoreTables.instancesByKey core

theorem storeNestedJobParameters_rows {child : JobExecutionId} {parameters : JobParameters}
    {answer : Unit}
    (done : storeNestedJobParameters child parameters state = .ok (answer, state')) :
    state'.jobExecutions = state.jobExecutions := by
  obtain ⟨_, rfl | ⟨_, rfl⟩⟩ := storeNestedJobParameters_effect done <;> rfl

private theorem storeNestedJobParameters_links {child : JobExecutionId} {parameters : JobParameters}
    {answer : Unit}
    (done : storeNestedJobParameters child parameters state = .ok (answer, state')) :
    state'.nestedJobLinks = state.nestedJobLinks := by
  obtain ⟨_, rfl | ⟨_, rfl⟩⟩ := storeNestedJobParameters_effect done <;> rfl

/-- A link to a child that stands under the parameters of its key. -/
private theorem linkSelected_changes (link : NestedJobLink) {answer : NestedJobLink}
    {name : JobName}
    {parameters : JobParameters} {first second : MemoryState}
    (named : link.childDefinition.jobName = some name)
    (stands : ChildStands link.childJobExecutionId link.childJobInstanceId link.childDefinition
      first)
    (free : first.nestedJobLinks[(link.parentJobExecutionId, link.nodeId)]? = none)
    (under : first.instancesByKey[JobInstanceKey.new name parameters]? =
      some link.childJobInstanceId) (unobserved : link.terminal = none)
    (done : (do
      storeNestedJobParameters link.childJobExecutionId parameters
      modify (insertNestedJobLink link)
      pure link : StagedM NestedJobLink) first = .ok (answer, second)) :
    Changes reader operation first second := by
  simp only [bind_yields, modify_yields, pure_yields, existsAndEq, true_and] at done
  obtain ⟨_, middle, stored, _, rfl, rfl⟩ := done
  refine (storeNestedJobParameters_changes stored).tail (.linkCreated ?_ ?_ unobserved rfl)
  · rw [storeNestedJobParameters_links stored]
    exact free
  · obtain ⟨⟨held, found, same⟩, kept⟩ := storeNestedJobParameters_effect stored
    have key : JobInstanceKey.new name held = JobInstanceKey.new name parameters := by
      unfold JobInstanceKey.new
      rw [same]
    refine ⟨?_, ?_, ?_, name, held, named, found, ?_⟩
    · rcases kept with rfl | ⟨_, rfl⟩ <;> exact stands.listed
    · rcases kept with rfl | ⟨_, rfl⟩ <;> exact stands.row
    · rcases kept with rfl | ⟨_, rfl⟩ <;> exact stands.definition
    · rw [key]
      rcases kept with rfl | ⟨_, rfl⟩ <;> exact under

private theorem createNestedJobLink_changes {request : NestedJobLinkRequest}
    {answer : NestedJobLink}
    (keyed : Keyed state)
    (done : createNestedJobLink supply request state = .ok (answer, state')) :
    Changes reader operation state state' := by
  simp only [createNestedJobLink, bind_yields, get_yields, lift_yields, ensure_ok, existsAndEq,
    and_true, true_and] at done
  obtain ⟨parentInstance, owner, _, _, matched, found, done⟩ := done
  cases matched with
  | some existing =>
    obtain ⟨_, rfl⟩ := pure_yields.mp done
    exact .refl
  | none =>
    have free : state.nestedJobLinks[(request.parentJobExecutionId, request.nodeId)]? = none := by
      unfold matchingNestedJobLink at found
      split at found
      · assumption
      · simp only [bind_ok, pure_ok, reduceCtorEq, and_false, exists_false] at found
    simp only [bind_yields, lift_yields, require_ok, get_yields, existsAndEq, and_true,
      true_and] at done
    obtain ⟨name, named, childInstance, first, selected, latest, current, done⟩ := done
    obtain ⟨entered, under⟩ := selectOrCreateJobInstance_changes reader operation keyed selected
    have linksKept : first.nestedJobLinks = state.nestedJobLinks := by
      rcases selectOrCreateJobInstance_effect selected with ⟨rfl, _⟩ | ⟨_, _, _, core⟩
      · rfl
      · exact congrArg CoreTables.nestedJobLinks core
    have free : first.nestedJobLinks[(request.parentJobExecutionId, request.nodeId)]? = none := by
      rw [linksKept]
      exact free
    let link (child : JobExecution) : NestedJobLink :=
      ⟨parentInstance, request.parentJobExecutionId, request.nodeId, request.childDefinition,
        childInstance.id, child.id, request.linkedAt, none⟩
    refine entered.trans ?_
    cases latest with
    | none =>
      obtain ⟨child, second, launched, linked⟩ := bind_yields.mp done
      have made := createJobExecution_effect launched
      refine .head (.launched made (by simp)) ?_
      exact linkSelected_changes (link child) named made.stands (made.links ▸ free)
        (made.keys ▸ under) rfl linked
    | some latest =>
      dsimp only at done
      obtain ⟨child, second, reused, linked⟩ := bind_yields.mp done
      rcases reuseChildExecution_effect (entered.keyed keyed) current reused with
        ⟨rfl, stands, _⟩ | made
      · exact linkSelected_changes (link child) named stands free under rfl linked
      · refine .head (.launched made (by simp)) ?_
        exact linkSelected_changes (link child) named made.stands (made.links ▸ free)
          (made.keys ▸ under) rfl linked

theorem continueChildExecution_effect {prior : NestedJobLink} {priorChild child : JobExecution}
    (done : continueChildExecution supply prior priorChild state = .ok (child, state')) :
    (state' = state ∧ child = priorChild ∧ priorChild.status = .completed) ∨
    Launched supply prior.childJobInstanceId prior.childDefinition false state child state' := by
  unfold continueChildExecution at done
  cases status : priorChild.status with
  | completed =>
    simp only [status] at done
    obtain ⟨rfl, rfl⟩ := pure_yields.mp done
    exact .inl ⟨rfl, rfl, rfl⟩
  | failed =>
    simp only [status] at done
    exact .inr (createJobExecution_effect done)
  | stopped =>
    simp only [status] at done
    exact .inr (createJobExecution_effect done)
  | starting | started | stopping | unknown | abandoned => simp [status] at done

private theorem linkContinued_change (prior : NestedJobLink) {link : NestedJobLink}
    (free : state.nestedJobLinks[(link.parentJobExecutionId, link.nodeId)]? = none)
    (continued : ChildContinued prior link state) :
    Change reader operation state (insertNestedJobLink link state) :=
  .linkContinued free continued rfl

private theorem continueNestedJobLink_changes {parent priorParent : JobExecutionId}
    {nodeId : NodeId}
    {linkedAt : SystemTime} {answer : NestedJobLink} (keyed : Keyed state)
    (done : continueNestedJobLink supply parent nodeId priorParent linkedAt state =
      .ok (answer, state')) : Changes reader operation state state' := by
  simp only [continueNestedJobLink, bind_yields, get_yields, lift_yields, existsAndEq, and_true,
    true_and] at done
  obtain ⟨parentInstance, owner, done⟩ := done
  cases free : state.nestedJobLinks[(parent, nodeId)]? with
  | some existing =>
    simp only [free] at done
    obtain ⟨_, rfl⟩ := pure_yields.mp done
    exact .refl
  | none =>
    simp only [free, bind_yields, lift_yields, require_ok, ensure_ok, existsAndEq, and_true,
      true_and, modify_yields, pure_yields] at done
    obtain ⟨prior, linked, _, _, parameters, held, priorChild, stored, child, first, continued, _,
      second, kept, _, rfl, rfl⟩ := done
    have priorId := keyed.executions _ _ stored
    obtain ⟨⟨second', held', same⟩, _⟩ := storeNestedJobParameters_effect kept
    rcases continueChildExecution_effect continued with ⟨rfl, rfl, _⟩ | made
    · refine (storeNestedJobParameters_changes kept).tail (linkContinued_change prior ?_ ?_)
      · rw [storeNestedJobParameters_links kept]
        exact free
      · refine ⟨⟨(priorParent, nodeId), ?_⟩, ⟨rfl, rfl⟩, ?_, ?_⟩
        · rw [storeNestedJobParameters_links kept]
          exact linked
        · exact ⟨second', second', by rw [← priorId]; exact held', held', rfl⟩
        · exact .inl ⟨priorId, by simp [priorId]⟩
    · have different : child.id ≠ prior.childJobExecutionId := fun same =>
        made.unused (same ▸ mem_of_lookup stored)
      -- neither the launch nor the new parameters reach those of the prior child
      have priorKept : second.jobParameters[prior.childJobExecutionId]? = some parameters := by
        obtain ⟨_, _, _, _, _, _, others, _, core⟩ := made.tables
        have table : first.jobParameters = _ := congrArg CoreTables.jobParameters core
        have before : first.jobParameters[prior.childJobExecutionId]? = some parameters := by
          rw [table]
          exact (others _ different.symm).trans held
        obtain ⟨_, rfl | ⟨_, rfl⟩⟩ := storeNestedJobParameters_effect kept
        · exact before
        · rw [lookup_insert, if_neg different]
          exact before
      refine .head (.launched made (by simp)) ?_
      refine (storeNestedJobParameters_changes kept).tail (linkContinued_change prior ?_ ?_)
      · rw [storeNestedJobParameters_links kept, made.links]
        exact free
      · refine ⟨⟨(priorParent, nodeId), ?_⟩, ⟨rfl, rfl⟩, ?_, .inr ⟨?_, ?_⟩⟩
        · rw [storeNestedJobParameters_links kept, made.links]
          exact linked
        · exact ⟨parameters, second', priorKept, held', same⟩
        · rw [if_neg different]
        · obtain ⟨_, rfl | ⟨_, rfl⟩⟩ := storeNestedJobParameters_effect kept
          · exact ⟨made.stored.2.1, made.stored.1, made.stored.2.2⟩
          · exact ⟨made.stored.2.1, made.stored.1, made.stored.2.2⟩

/-- The end of a child is recorded where it was not. -/
theorem observeNestedJobTerminal_effect {parent : JobExecutionId} {nodeId : NodeId}
    {observedAt : SystemTime} {answer : NestedJobLink}
    (done : observeNestedJobTerminal parent nodeId observedAt state = .ok (answer, state')) :
    state' = state ∨ ∃ link child, state.nestedJobLinks[(parent, nodeId)]? = some link ∧
      state.jobExecutions[link.childJobExecutionId]? = some child ∧
      (child.status = .completed ∨ child.status = .failed ∨ child.status = .stopped) ∧
      state' = { state with
        nestedJobLinks := state.nestedJobLinks.insert (parent, nodeId)
          { link with
            terminal := some ⟨child.status, child.metadata.exitStatus, observedAt⟩ } } := by
  simp only [observeNestedJobTerminal, bind_yields, get_yields, lift_yields, require_ok, ensure_ok,
    existsAndEq, and_true, true_and] at done
  obtain ⟨link, linked, child, stored, _, ended, done⟩ := done
  simp only [Bool.or_eq_true, decide_eq_true_eq, or_assoc] at ended
  cases observed : link.terminal with
  | some existing =>
    simp only [observed, bind_yields, lift_yields, ensure_ok, pure_yields, existsAndEq,
      and_true] at done
    obtain ⟨_, _, _, rfl⟩ := done
    exact .inl rfl
  | none =>
    simp only [observed, bind_yields, modify_yields, pure_yields, existsAndEq, true_and] at done
    obtain ⟨_, _, rfl⟩ := done
    exact .inr ⟨link, child, linked, stored, ended, rfl⟩

private theorem observeNestedJobTerminal_changes {parent : JobExecutionId} {nodeId : NodeId}
    {observedAt : SystemTime} {answer : NestedJobLink}
    (done : observeNestedJobTerminal parent nodeId observedAt state = .ok (answer, state')) :
    Changes reader operation state state' := by
  rcases observeNestedJobTerminal_effect done with rfl | ⟨link, child, linked, stored, ended, rfl⟩
  · exact .refl
  · exact .single (.observed linked stored ended rfl)

end Links

section Perform

variable {reader : DefinitionReader} {state state' : MemoryState}

theorem appendFlowDecision_effect {request : FlowDecisionRequest} {answer : FlowDecision}
    (done : appendFlowDecision reader request state = .ok (answer, state')) :
    answer.id ∉ state.flowDecisions ∧ state' = { state with
      flowDecisions := state.flowDecisions.insert answer.id answer
      flowDecisionsByJob :=
        pushUnder state.flowDecisionsByJob answer.jobExecutionId answer.id } := by
  simp only [appendFlowDecision, bind_yields, get_yields, lift_yields, require_ok, ensure_ok,
    modify_yields, pure_yields, existsAndEq, and_true, true_and] at done
  obtain ⟨_, _, _, _, _, _, _, _, _, _, _, _, id, next, _, rfl, rfl⟩ := done
  exact ⟨nextId_unused next, rfl⟩

private theorem appendFlowDecision_changes {operation : Operation} {request : FlowDecisionRequest}
    {answer : FlowDecision}
    (done : appendFlowDecision reader request state = .ok (answer, state')) :
    Changes reader operation state state' := by
  obtain ⟨unused, rfl⟩ := appendFlowDecision_effect done
  exact .single (.decided answer unused rfl)

theorem checks_ok {α : Type} {check : α → Except RepositoryError Unit} {values : List α}
    {answer : Unit}
    (checked : (values.forM fun value => liftM (check value) : StagedM Unit) state =
      .ok (answer, state')) :
    state = state' ∧ ∀ value ∈ values, check value = .ok () := by
  induction values with
  | nil =>
    obtain ⟨_, rfl⟩ := pure_yields.mp checked
    exact ⟨rfl, by simp⟩
  | cons value values ih =>
    obtain ⟨_, middle, here, rest⟩ := bind_yields.mp checked
    obtain ⟨passed, rfl⟩ := lift_yields.mp here
    obtain ⟨same, others⟩ := ih rest
    exact ⟨same, by simpa using ⟨passed, others⟩⟩

theorem applyPurge_effect {plan : PurgePlan} {answer : PurgeCounts}
    (done : applyPurge plan state = .ok (answer, state')) :
    state' = purged state plan.candidates ∧
      ∀ candidate ∈ plan.candidates, checkCandidate state plan.request candidate = .ok () := by
  simp only [applyPurge, bind_yields, get_yields, lift_yields, ensure_ok,
    modify_yields, pure_yields, existsAndEq, and_true, true_and] at done
  obtain ⟨_, middle, checked, _, _, _, _, rfl⟩ := done
  obtain ⟨rfl, passed⟩ := checks_ok checked
  exact ⟨rfl, passed⟩

theorem applyPurge_change {plan : PurgePlan} {answer : PurgeCounts}
    (done : applyPurge plan state = .ok (answer, state')) :
    Change reader (.applyPurge plan) state state' := by
  obtain ⟨rfl, passed⟩ := applyPurge_effect done
  exact .purged rfl passed

/-- Every operation is a sequence of changes. -/
theorem Operation.perform_changes {supply : Supply} {createdPlans : ExtTreeSet StepExecutionId}
    {operation : Operation} {answer : Unit} (keyed : Keyed state)
    (done : operation.perform reader supply createdPlans state = .ok (answer, state')) :
    Changes reader operation state state' := by
  cases operation with
  | registerDefinition registration =>
    obtain ⟨_, done⟩ := discard_yields.mp done
    exact .single (.quiet (registerDefinition_quiet _ _ _ done))
  | registerDefinitionUpgrade jobName upgrade =>
    exact .single (.quiet (registerDefinitionUpgrade_quiet _ _ _ done))
  | selectOrCreateJobInstance key =>
    obtain ⟨_, done⟩ := discard_yields.mp done
    exact (selectOrCreateJobInstance_changes reader _ keyed done).1
  | createJobExecution instanceId definition parameters =>
    obtain ⟨_, done⟩ := discard_yields.mp done
    exact .single (.launched (createJobExecutionWithDefinition_effect done) (by simp))
  | createJobExecutionWithUpgrade instanceId upgrade parameters =>
    obtain ⟨_, done⟩ := discard_yields.mp done
    exact .single (.launched (createJobExecutionWithUpgrade_effect done)
      fun _ => ⟨upgrade, parameters, rfl⟩)
  | storeScopeResolutionProvenance entries =>
    exact .single (.quiet (storeScopeResolutionProvenance_quiet _ _ _ done))
  | createFlowStepExecution jobExecutionId stepName nodeId startLimit =>
    obtain ⟨_, done⟩ := discard_yields.mp done
    exact .single (.stepEntered (createFlowStepExecution_effect done))
  | transitionJobExecution id expected transition =>
    obtain ⟨_, done⟩ := discard_yields.mp done
    exact .single (.moved (transitionJobExecution_moves done))
  | enrichJobExitStatus id expected exitStatus =>
    obtain ⟨_, done⟩ := discard_yields.mp done
    exact .single (.moved (enrichJobExitStatus_moves done))
  | transitionStepExecution id expected transition =>
    obtain ⟨_, done⟩ := discard_yields.mp done
    exact .single (.moved (transitionStepExecution_moves done))
  | enrichStepExitStatus id expected exitStatus =>
    obtain ⟨_, done⟩ := discard_yields.mp done
    exact .single (.moved (enrichStepExitStatus_moves done))
  | commitStepExecutionContext id expected context =>
    obtain ⟨_, done⟩ := discard_yields.mp done
    exact .single (.moved (commitStepExecutionContext_moves done))
  | appendFlowDecision request =>
    obtain ⟨_, done⟩ := discard_yields.mp done
    exact appendFlowDecision_changes done
  | commitRepeatIteration request =>
    obtain ⟨_, done⟩ := discard_yields.mp done
    rcases commitRepeatIteration_effect done with ⟨rfl, _⟩ | ⟨rfl, _⟩
    · exact .refl
    · exact .single (.repeated rfl done)
  | createNestedJobLink request =>
    obtain ⟨_, done⟩ := discard_yields.mp done
    exact createNestedJobLink_changes keyed done
  | continueNestedJobLink parent nodeId priorParent linkedAt =>
    obtain ⟨_, done⟩ := discard_yields.mp done
    exact continueNestedJobLink_changes keyed done
  | observeNestedJobTerminal parent nodeId observedAt =>
    obtain ⟨_, done⟩ := discard_yields.mp done
    exact observeNestedJobTerminal_changes done
  | stageForkJobContext target context =>
    exact .single (.quiet (stageForkJobContext_quiet _ _ _ done))
  | appendForkLineage lineage =>
    exact .single (.quiet (appendForkLineage_quiet _ _ _ done))
  | createStepPartitionPlan stepExecutionId entries =>
    obtain ⟨_, done⟩ := discard_yields.mp done
    exact .single (.moved (createStepPartitionPlan_keeps _ _ _ done).rows)
  | restartStepPartitionPlan source target =>
    obtain ⟨_, done⟩ := discard_yields.mp done
    exact .single (.moved (restartStepPartitionPlan_keeps _ _ _ done).rows)
  | assignStepPartition id expected worker =>
    obtain ⟨_, done⟩ := discard_yields.mp done
    exact .single (.moved (assignStepPartition_keeps _ _ _ done).rows)
  | completeStepPartition id expected worker =>
    obtain ⟨_, done⟩ := discard_yields.mp done
    exact .single (.moved (completeStepPartition_keeps _ _ _ done).rows)
  | aggregateStepPartitions stepExecutionId expected transitionedAt =>
    obtain ⟨_, done⟩ := discard_yields.mp done
    exact .single (.moved (aggregateStepPartitions_moves done))
  | recoverJobExecution id request =>
    obtain ⟨_, done⟩ := discard_yields.mp done
    exact .single (.moved (recoverJobExecution_moves keyed done))
  | appendOperatorRequest draft =>
    obtain ⟨_, done⟩ := discard_yields.mp done
    exact .single (.quiet (appendOperatorRequest_quiet _ _ _ done))
  | requestExecutionStop id expected requestedAt =>
    obtain ⟨_, done⟩ := discard_yields.mp done
    exact .single (.quiet (requestExecutionStop_quiet _ _ _ done))
  | claimExecutionOwner id expected owner claimedAt =>
    obtain ⟨_, done⟩ := discard_yields.mp done
    exact .single (.quiet (claimExecutionOwner_quiet _ _ _ done))
  | observeExecutionControl id owner observedAt =>
    obtain ⟨_, done⟩ := discard_yields.mp done
    exact .single (.moved (observeExecutionControl_moves done))
  | placeInstanceHold id actor reason placedAt =>
    obtain ⟨_, done⟩ := discard_yields.mp done
    exact .single (.quiet (placeInstanceHold_quiet _ _ _ done))
  | releaseInstanceHold id =>
    obtain ⟨_, done⟩ := discard_yields.mp done
    exact .single (.quiet (releaseInstanceHold_quiet _ _ _ done))
  | appendRetentionAction draft =>
    obtain ⟨_, done⟩ := discard_yields.mp done
    exact .single (.quiet (appendRetentionAction_quiet _ _ _ done))
  | applyPurge plan =>
    obtain ⟨_, done⟩ := discard_yields.mp done
    exact .single (applyPurge_change done)

end Perform

end OxideBatch.Repository
