import OxideBatch.Repository.Retention

/-! The in-memory repository with its open units of work. Each works on its own
snapshot; a commit is a compare-and-swap on the revision. -/

namespace OxideBatch.Repository

open OxideBatch.Core OxideBatch.Plan
open Std (ExtTreeMap ExtTreeSet)

/-- The operations of `RepositoryUnitOfWork` that change its tables. -/
inductive Operation where
  | registerDefinition (registration : DefinitionRegistration)
  | registerDefinitionUpgrade (jobName : JobName) (upgrade : DefinitionUpgrade)
  | selectOrCreateJobInstance (key : JobInstanceKey)
  | createJobExecution (instanceId : JobInstanceId) (definition : DefinitionIdentity)
      (parameters : Option JobParameters)
  | createJobExecutionWithUpgrade (instanceId : JobInstanceId) (upgrade : DefinitionUpgradeExecution)
      (parameters : Option JobParameters)
  | storeScopeResolutionProvenance (entries : List ScopeResolutionProvenance)
  | createFlowStepExecution (jobExecutionId : JobExecutionId) (stepName : StepName)
      (nodeId : NodeId) (startLimit : Nat)
  | transitionJobExecution (id : JobExecutionId) (expected : ExecutionVersion)
      (transition : LifecycleTransition)
  | enrichJobExitStatus (id : JobExecutionId) (expected : ExecutionVersion)
      (exitStatus : ExitStatus)
  | transitionStepExecution (id : StepExecutionId) (expected : ExecutionVersion)
      (transition : LifecycleTransition)
  | enrichStepExitStatus (id : StepExecutionId) (expected : ExecutionVersion)
      (exitStatus : ExitStatus)
  | commitStepExecutionContext (id : StepExecutionId) (expected : ExecutionVersion)
      (context : ExecutionContext)
  | appendFlowDecision (request : FlowDecisionRequest)
  | commitRepeatIteration (request : RepeatCommitRequest)
  | createNestedJobLink (request : NestedJobLinkRequest)
  | continueNestedJobLink (parent : JobExecutionId) (nodeId : NodeId)
      (priorParent : JobExecutionId) (linkedAt : SystemTime)
  | observeNestedJobTerminal (parent : JobExecutionId) (nodeId : NodeId) (observedAt : SystemTime)
  | stageForkJobContext (target : JobExecutionId) (context : ExecutionContext)
  | appendForkLineage (lineage : ForkLineage)
  | createStepPartitionPlan (stepExecutionId : StepExecutionId) (entries : List PartitionPlanEntry)
  | restartStepPartitionPlan (source target : StepExecutionId)
  | assignStepPartition (id : StepPartitionId) (expected : ExecutionVersion)
      (worker : StepExecutionId)
  | completeStepPartition (id : StepPartitionId) (expected : ExecutionVersion)
      (worker : StepExecutionId)
  | aggregateStepPartitions (stepExecutionId : StepExecutionId) (expected : ExecutionVersion)
      (transitionedAt : SystemTime)
  | recoverJobExecution (id : JobExecutionId) (request : RecoveryRequest)
  | appendOperatorRequest (draft : OperatorRecordDraft)
  | requestExecutionStop (id : JobExecutionId) (expected : ExecutionVersion)
      (requestedAt : SystemTime)
  | claimExecutionOwner (id : JobExecutionId) (expected : ExecutionVersion) (owner : OwnerToken)
      (claimedAt : SystemTime)
  | observeExecutionControl (id : JobExecutionId) (owner : OwnerToken) (observedAt : SystemTime)
  | placeInstanceHold (id : JobInstanceId) (actor : ActorRef) (reason : ReasonCode)
      (placedAt : SystemTime)
  | releaseInstanceHold (id : JobInstanceId)
  | appendRetentionAction (draft : RetentionRecordDraft)
  | applyPurge (plan : PurgePlan)

namespace Operation

/-- What an operation does to the staged tables; its answer is left out. -/
def perform (reader : DefinitionReader) (supply : Supply)
    (createdPlans : ExtTreeSet StepExecutionId) : Operation → StagedM Unit
  | registerDefinition registration => discard (Repository.registerDefinition registration)
  | registerDefinitionUpgrade jobName upgrade =>
    Repository.registerDefinitionUpgrade jobName upgrade
  | selectOrCreateJobInstance key => discard (Repository.selectOrCreateJobInstance supply key)
  | createJobExecution instanceId definition parameters =>
    discard (createJobExecutionWithDefinition supply instanceId definition parameters)
  | createJobExecutionWithUpgrade instanceId upgrade parameters =>
    discard (Repository.createJobExecutionWithUpgrade supply instanceId upgrade parameters)
  | storeScopeResolutionProvenance entries => Repository.storeScopeResolutionProvenance entries
  | createFlowStepExecution jobExecutionId stepName nodeId startLimit =>
    discard (Repository.createFlowStepExecution supply jobExecutionId stepName nodeId startLimit)
  | transitionJobExecution id expected transition =>
    discard (Repository.transitionJobExecution id expected transition)
  | enrichJobExitStatus id expected exitStatus =>
    discard (Repository.enrichJobExitStatus id expected exitStatus)
  | transitionStepExecution id expected transition =>
    discard (Repository.transitionStepExecution id expected transition)
  | enrichStepExitStatus id expected exitStatus =>
    discard (Repository.enrichStepExitStatus id expected exitStatus)
  | commitStepExecutionContext id expected context =>
    discard (Repository.commitStepExecutionContext id expected context)
  | appendFlowDecision request => discard (Repository.appendFlowDecision reader request)
  | commitRepeatIteration request => discard (Repository.commitRepeatIteration reader request)
  | createNestedJobLink request => discard (Repository.createNestedJobLink supply request)
  | continueNestedJobLink parent nodeId priorParent linkedAt =>
    discard (Repository.continueNestedJobLink supply parent nodeId priorParent linkedAt)
  | observeNestedJobTerminal parent nodeId observedAt =>
    discard (Repository.observeNestedJobTerminal parent nodeId observedAt)
  | stageForkJobContext target context => Repository.stageForkJobContext target context
  | appendForkLineage lineage => Repository.appendForkLineage reader lineage
  | createStepPartitionPlan stepExecutionId entries =>
    discard (Repository.createStepPartitionPlan stepExecutionId entries)
  | restartStepPartitionPlan source target =>
    discard (Repository.restartStepPartitionPlan source target)
  | assignStepPartition id expected worker =>
    discard (Repository.assignStepPartition createdPlans id expected worker)
  | completeStepPartition id expected worker =>
    discard (Repository.completeStepPartition id expected worker)
  | aggregateStepPartitions stepExecutionId expected transitionedAt =>
    discard (Repository.aggregateStepPartitions stepExecutionId expected transitionedAt)
  | recoverJobExecution id request => discard (Repository.recoverJobExecution supply id request)
  | appendOperatorRequest draft => discard (Repository.appendOperatorRequest draft)
  | requestExecutionStop id expected requestedAt =>
    discard (Repository.requestExecutionStop id expected requestedAt)
  | claimExecutionOwner id expected owner claimedAt =>
    discard (Repository.claimExecutionOwner id expected owner claimedAt)
  | observeExecutionControl id owner observedAt =>
    discard (Repository.observeExecutionControl id owner observedAt)
  | placeInstanceHold id actor reason placedAt =>
    discard (Repository.placeInstanceHold id actor reason placedAt)
  | releaseInstanceHold id => discard (Repository.releaseInstanceHold id)
  | appendRetentionAction draft => discard (Repository.appendRetentionAction draft)
  | applyPurge plan => discard (Repository.applyPurge plan)

/-- The step whose partition plan an operation creates. -/
def plannedStep : Operation → Option StepExecutionId
  | createStepPartitionPlan stepExecutionId _ => some stepExecutionId
  | restartStepPartitionPlan _ target => some target
  | _ => none

end Operation

/-- An operation inside its unit of work. -/
def UnitOfWork.operate (reader : DefinitionReader) (supply : Supply) (operation : Operation)
    (unit : UnitOfWork) : Except RepositoryError UnitOfWork := do
  let (_, staged) ← operation.perform reader supply unit.createdPartitionPlans unit.staged
  pure
    { unit with
      staged
      createdPartitionPlans := match operation.plannedStep with
        | some stepExecutionId => unit.createdPartitionPlans.insert stepExecutionId
        | none => unit.createdPartitionPlans }

/-- `commit`: only over the revision the unit began from. -/
def UnitOfWork.commit (unit : UnitOfWork) (current : MemoryState) :
    Except RepositoryError MemoryState := do
  if current.revision ≠ unit.baseRevision then .error .concurrentModification
  else
    let revision ← require (Core.checkedAdd current.revision 1) .concurrentModification
    pure { unit.staged with revision }

/-- The committed state and the open units of work by handle. -/
structure World where
  committed : MemoryState
  units : ExtTreeMap Nat UnitOfWork

def World.new : World := ⟨.empty, ∅⟩

inductive Event where
  | begin (handle : Nat)
  | operate (handle : Nat) (supply : Supply) (operation : Operation)
  | commit (handle : Nat)
  | rollback (handle : Nat)

namespace World

/-- A unit is given up with its first failing operation, as the launcher and the services give
it up, which pass the error on; a commit ends its unit in any case. A unit of the source outlives
a failed call: it keeps what the call had staged ahead of its error and could still be committed.
Such runs are not among these. -/
def step (reader : DefinitionReader) (world : World) : Event → World
  | .begin handle =>
    { world with units := world.units.insert handle world.committed.beginUnit }
  | .operate handle supply operation =>
    match world.units[handle]? with
    | none => world
    | some unit =>
      match unit.operate reader supply operation with
      | .ok unit => { world with units := world.units.insert handle unit }
      | .error _ => { world with units := world.units.erase handle }
  | .commit handle =>
    match world.units[handle]? with
    | none => world
    | some unit =>
      match unit.commit world.committed with
      | .ok committed => ⟨committed, world.units.erase handle⟩
      | .error _ => { world with units := world.units.erase handle }
  | .rollback handle => { world with units := world.units.erase handle }

def run (reader : DefinitionReader) (world : World) (events : List Event) : World :=
  events.foldl (step reader) world

end World

end OxideBatch.Repository
