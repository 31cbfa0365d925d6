import OxideBatch.Repository.Partition

/-! Nested jobs and forks: the links between the executions of different instances. -/

namespace OxideBatch.Repository

open OxideBatch.Core OxideBatch.Plan
open Std (ExtTreeMap ExtTreeSet)
open Tables

section Links

/-- The link of a parent node, if it is to the same child. -/
def matchingNestedJobLink (state : MemoryState) (parent : JobExecutionId) (nodeId : NodeId)
    (definition : DefinitionIdentity) (parameters : JobParameters) :
    Except RepositoryError (Option NestedJobLink) :=
  match state.nestedJobLinks[(parent, nodeId)]? with
  | none => .ok none
  | some existing => do
    let stored ← require state.jobParameters[existing.childJobExecutionId]? .nestedJobStateCorrupt
    ensure (existing.childDefinition = definition && decide (stored.toList = parameters.toList))
      .nestedJobStateCorrupt
    pure (some existing)

/-- The parameters of a child are stored once and never change. -/
def storeNestedJobParameters (child : JobExecutionId) (parameters : JobParameters) :
    StagedM Unit := do
  match (← get).jobParameters[child]? with
  | some existing => ensure (existing.toList = parameters.toList) .nestedJobStateCorrupt
  | none =>
    modify fun state => { state with jobParameters := state.jobParameters.insert child parameters }

/-- Stores a new link and lists its parent. -/
def insertNestedJobLink (link : NestedJobLink) (state : MemoryState) : MemoryState :=
  { state with
    nestedJobLinks :=
      state.nestedJobLinks.insert (link.parentJobExecutionId, link.nodeId) link,
    nestedJobLinksByInstance := pushUnder state.nestedJobLinksByInstance
      (link.parentJobInstanceId, link.nodeId) link.parentJobExecutionId }

/-- The child of a new link when its instance already has executions. -/
def reuseChildExecution (supply : Supply) (request : NestedJobLinkRequest)
    (childInstance : JobInstanceId) (latest : JobExecution) : StagedM JobExecution := do
  let state ← get
  let definition ← require state.executionDefinitions[latest.id]? .nestedJobStateCorrupt
  ensure (definition = request.childDefinition) .nestedJobStateCorrupt
  match latest.status with
  | .completed => do
    let parameters ← require state.jobParameters[latest.id]? .nestedJobStateCorrupt
    ensure (parameters.toList = request.childParameters.toList) .nestedJobStateCorrupt
    pure latest
  | .failed | .stopped => createJobExecution supply childInstance request.childDefinition none
  | .starting | .started | .stopping | .unknown =>
    throw (.nestedJobChildUnresolved latest.id latest.status)
  | .abandoned => throw .nestedJobStateCorrupt

def createNestedJobLink (supply : Supply) (request : NestedJobLinkRequest) :
    StagedM NestedJobLink := do
  let state ← get
  let parentInstance ← instanceForExecution state request.parentJobExecutionId
  ensure (parentInstance = request.parentJobInstanceId) .nestedJobStateCorrupt
  match ← matchingNestedJobLink state request.parentJobExecutionId request.nodeId
      request.childDefinition request.childParameters with
  | some existing => pure existing
  | none => do
    let childName ← require request.childDefinition.jobName .nestedJobStateCorrupt
    let childInstance ← selectOrCreateJobInstance supply
      (JobInstanceKey.new childName request.childParameters)
    let latest ← latestJobExecution (← get) childInstance.id
    let child ← match latest with
      | none => createJobExecution supply childInstance.id request.childDefinition none
      | some latest => reuseChildExecution supply request childInstance.id latest
    storeNestedJobParameters child.id request.childParameters
    let link : NestedJobLink :=
      ⟨parentInstance, request.parentJobExecutionId, request.nodeId, request.childDefinition,
        childInstance.id, child.id, request.linkedAt, none⟩
    modify (insertNestedJobLink link)
    pure link

/-- The child a restarted parent goes on with: the completed one, or a new attempt. -/
def continueChildExecution (supply : Supply) (prior : NestedJobLink) (child : JobExecution) :
    StagedM JobExecution :=
  match child.status with
  | .completed => pure child
  | .failed | .stopped =>
    createJobExecution supply prior.childJobInstanceId prior.childDefinition none
  | .starting | .started | .stopping | .unknown =>
    throw (.nestedJobChildUnresolved child.id child.status)
  | .abandoned => throw .nestedJobStateCorrupt

def continueNestedJobLink (supply : Supply) (parent : JobExecutionId) (nodeId : NodeId)
    (priorParent : JobExecutionId) (linkedAt : SystemTime) : StagedM NestedJobLink := do
  let state ← get
  let parentInstance ← instanceForExecution state parent
  match state.nestedJobLinks[(parent, nodeId)]? with
  | some existing => pure existing
  | none => do
    let prior ← require state.nestedJobLinks[(priorParent, nodeId)]? .nestedJobStateCorrupt
    ensure (prior.parentJobInstanceId = parentInstance) .nestedJobStateCorrupt
    let parameters ← require state.jobParameters[prior.childJobExecutionId]? .nestedJobStateCorrupt
    let priorChild ← require state.jobExecutions[prior.childJobExecutionId]? .nestedJobStateCorrupt
    let child ← continueChildExecution supply prior priorChild
    storeNestedJobParameters child.id parameters
    let terminal := if child.id = prior.childJobExecutionId then prior.terminal else none
    let link : NestedJobLink :=
      ⟨parentInstance, parent, nodeId, prior.childDefinition, prior.childJobInstanceId, child.id,
        linkedAt, terminal⟩
    modify (insertNestedJobLink link)
    pure link

/-- `observe_nested_job_terminal`: the end of a child is recorded once. -/
def observeNestedJobTerminal (parent : JobExecutionId) (nodeId : NodeId) (observedAt : SystemTime) :
    StagedM NestedJobLink := do
  let state ← get
  let link ← require state.nestedJobLinks[(parent, nodeId)]? .nestedJobStateCorrupt
  let child ← require state.jobExecutions[link.childJobExecutionId]? .nestedJobStateCorrupt
  ensure (child.status = .completed || child.status = .failed || child.status = .stopped)
    (.nestedJobChildUnresolved child.id child.status)
  match link.terminal with
  | some existing => do
    ensure (existing.status = child.status && existing.exitStatus = child.metadata.exitStatus)
      .nestedJobStateCorrupt
    pure link
  | none => do
    let observed := { link with
      terminal := some ⟨child.status, child.metadata.exitStatus, observedAt⟩ }
    modify fun state =>
      { state with nestedJobLinks := state.nestedJobLinks.insert (parent, nodeId) observed }
    pure observed

end Links

section Forks

def stageForkJobContext (target : JobExecutionId) (context : ExecutionContext) : StagedM Unit := do
  let state ← get
  let execution ← require state.jobExecutions[target]? .forkStateCorrupt
  ensure (execution.status = .starting && execution.version = .initial &&
    !state.forkJobContexts.contains target && state.executionAttempts[target]? = some 1)
    .forkStateCorrupt
  modify fun state => { state with forkJobContexts := state.forkJobContexts.insert target context }

/-- The staged context is of the schema the lineage declares. -/
def forkContextMatches (state : MemoryState) (lineage : ForkLineage) : Bool :=
  match lineage.contextTransform, state.forkJobContexts[lineage.targetExecutionId]? with
  | none, none => true
  | some transform, some context =>
    context.schemaId = transform.descriptor.targetSchema &&
      context.schemaVersion = transform.descriptor.targetVersion.get
  | _, _ => false

/-- The lineage names the executions, definitions, and parameters that are stored. -/
def forkLineageMatches (reader : DefinitionReader) (state : MemoryState) (lineage : ForkLineage)
    (target : JobExecution) : Bool :=
  target.jobInstanceId = lineage.targetInstanceId &&
    state.jobExecutionsByInstance[lineage.targetInstanceId]? = some [lineage.targetExecutionId] &&
    state.jobExecutions.contains lineage.sourceExecutionId &&
    state.executionDefinitions[lineage.sourceExecutionId]?.any
      (·.manifestDigest = lineage.sourceDefinitionDigest) &&
    state.executionDefinitions[lineage.targetExecutionId]? = some lineage.target.definition &&
    state.jobParameters[lineage.targetExecutionId]?.any
      (reader.flowInputDigest · = lineage.targetParametersDigest)

def appendForkLineage (reader : DefinitionReader) (lineage : ForkLineage) : StagedM Unit := do
  let state ← get
  ensure (!(state.forkLineages.contains lineage.operationId ||
    state.forkLineages.toList.any fun entry =>
      entry.2.targetInstanceId = lineage.targetInstanceId ||
        entry.2.targetExecutionId = lineage.targetExecutionId)) .forkOperationConflict
  let target ← require state.jobExecutions[lineage.targetExecutionId]? .forkStateCorrupt
  ensure (forkContextMatches state lineage) .forkStateCorrupt
  ensure (forkLineageMatches reader state lineage target) .forkStateCorrupt
  modify fun state =>
    { state with forkLineages := state.forkLineages.insert lineage.operationId lineage }

end Forks

end OxideBatch.Repository
