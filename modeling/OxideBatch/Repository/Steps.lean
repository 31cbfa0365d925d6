import OxideBatch.Repository.Launch

/-! Step executions and what they record: scope provenance, contexts, flow
decisions, and repeat iterations. -/

namespace OxideBatch.Repository

open OxideBatch.Core OxideBatch.Plan
open Std (ExtTreeMap ExtTreeSet)
open Tables

/-- What the repository reads out of canonical manifests and digests of parameters. -/
structure DefinitionReader where
  readable : DefinitionIdentity → Bool
  advanced : DefinitionIdentity → Bool
  decisionMatches : DefinitionIdentity → FlowDecisionRequest → Bool
  repeatOwner : DefinitionIdentity → RepeatCommitRequest → Option RepeatManifestOwner
  partitionWorkerToken : NodeId → PartitionKey → String
  flowInputDigest : JobParameters → Digest

section Provenance

/-- The checks of one entry that do not depend on the others. -/
def validateScopeEntry (state : MemoryState) (entry : ScopeResolutionProvenance) :
    Except RepositoryError Unit := do
  let _ ← instanceForExecution state entry.ownerJobExecutionId
  match entry.ownerStepExecutionId with
  | some stepId => do
    let step ← require state.stepExecutions[stepId]? (.stepExecutionNotFound stepId)
    ensure (step.jobExecutionId = entry.ownerJobExecutionId) .scopeResolutionStateCorrupt
  | none => pure ()
  validateScopeProvenanceSource state entry

/-- A batch is of one owner and one component, and names each input once. -/
def sameScopeOwner (first entry : ScopeResolutionProvenance) : Bool :=
  entry.scope = first.scope && entry.component = first.component &&
    entry.ownerJobExecutionId = first.ownerJobExecutionId &&
    entry.ownerStepExecutionId = first.ownerStepExecutionId

def storeScopeEntry (first : ScopeResolutionProvenance) (inputs : ExtTreeSet ParameterName)
    (entry : ScopeResolutionProvenance) : StagedM (ExtTreeSet ParameterName) := do
  ensure (sameScopeOwner first entry && !inputs.contains entry.input) .scopeResolutionStateCorrupt
  let state ← get
  validateScopeEntry state entry
  match state.scopeResolutionProvenance[entry.key]? with
  | some existing => ensure (existing = entry) .scopeResolutionStateCorrupt
  | none => modify fun state =>
    { state with
      scopeExplorerOrder :=
        state.scopeExplorerOrder.insert entry.key (nextOrder state.scopeExplorerOrder),
      scopeResolutionProvenance := state.scopeResolutionProvenance.insert entry.key entry }
  pure (inputs.insert entry.input)

def storeScopeResolutionProvenance (entries : List ScopeResolutionProvenance) : StagedM Unit := do
  ensure (entries.length ≤ maxLateBoundInputs) .scopeResolutionStateCorrupt
  match entries with
  | [] => pure ()
  | first :: _ => do
    let _ ← entries.foldlM (storeScopeEntry first) ∅

end Provenance

section Create

/-- How often a node was started in the executions of an instance. -/
def historicalStarts (state : MemoryState) (instanceId : JobInstanceId) (nodeId : NodeId) : Nat :=
  let steps := (state.jobExecutionsByInstance[instanceId]?.getD []).flatMap fun executionId =>
    state.stepExecutionsByJob[executionId]?.getD []
  steps.countP fun stepId => state.stepLogicalIds[stepId]? = some nodeId

/-- The repeats of an upgrade seed, taken over by the new step. -/
def materializeRepeats (instanceId : JobInstanceId) (nodeId : NodeId) (id : StepExecutionId)
    (fingerprint : Digest) (repeats : List RepeatExecution)
    (table : ExtTreeMap (StepExecutionId × RepeatId) RepeatExecution) :
    ExtTreeMap (StepExecutionId × RepeatId) RepeatExecution :=
  repeats.foldl (fun table repeated =>
    table.insert (id, repeated.repeatId)
      { repeated with
        jobInstanceId := instanceId
        nodeId
        definitionNodeId := nodeId
        stepExecutionId := id
        planFingerprint := fingerprint }) table

def installRepeats (instanceId : JobInstanceId) (jobExecutionId : JobExecutionId) (nodeId : NodeId)
    (id : StepExecutionId) (repeats : List RepeatExecution) : StagedM Unit := do
  if repeats = [] then pure ()
  else do
    let definition ← require (← get).executionDefinitions[jobExecutionId]? .repeatStateCorrupt
    modify fun state =>
      { state with
        repeatExecutions := materializeRepeats instanceId nodeId id definition.manifestDigest
          repeats state.repeatExecutions }

/-- What a step takes over from the seed of an upgrade. -/
def installStepSeed (instanceId : JobInstanceId) (jobExecutionId : JobExecutionId) (nodeId : NodeId)
    (id : StepExecutionId) (seed : Option MemoryUpgradeNodeSeed) : StagedM Unit :=
  match seed with
  | some seed => do
    installRepeats instanceId jobExecutionId nodeId id seed.repeats
    materializeScopeSeeds jobExecutionId (some id) seed.scope
  | none => pure ()

/-- What a step takes over from the one it continues. -/
def continueStep (jobExecutionId : JobExecutionId) (id : StepExecutionId)
    (prior : Option FlowStepState) : StagedM Unit :=
  match prior with
  | some prior =>
    copyForwardScopeResolutionProvenance prior.execution.jobExecutionId (some prior.execution.id)
      jobExecutionId (some id)
  | none => pure ()

/-- The step a new one continues; an upgraded execution starts from its seeds only. -/
def priorStep (state : MemoryState) (instanceId : JobInstanceId) (jobExecutionId : JobExecutionId)
    (nodeId : NodeId) : Except RepositoryError (Option FlowStepState) :=
  if state.upgradeSources.contains jobExecutionId then .ok none
  else latestFlowStepSnapshot state instanceId nodeId

/-- The rows of a new step execution, before its job lists it. -/
def insertStepExecution (execution : StepExecution) (nodeId : NodeId)
    (context : Option ExecutionContext) (state : MemoryState) : MemoryState :=
  { state with
    stepExecutions := state.stepExecutions.insert execution.id execution,
    stepLogicalIds := state.stepLogicalIds.insert execution.id nodeId,
    stepContexts := match context with
      | some context => state.stepContexts.insert execution.id context
      | none => state.stepContexts }

/-- `create_flow_step_execution`; `create_step_execution` is the node of the step's
name without a start limit. -/
def createFlowStepExecution (supply : Supply) (jobExecutionId : JobExecutionId)
    (stepName : StepName) (nodeId : NodeId) (startLimit : Nat) : StagedM StepExecution := do
  let state ← get
  let instanceId ← instanceForExecution state jobExecutionId
  ensure (historicalStarts state instanceId nodeId < startLimit)
    (.startLimitExceeded instanceId nodeId startLimit)
  let seed := state.upgradeSeeds[(jobExecutionId, nodeId)]?
  let id ← require supply.stepExecutionId (.identifier .stepExecution)
  ensure (!state.stepExecutions.contains id) (.duplicateIdentifier .stepExecution id.get)
  let prior ← priorStep state instanceId jobExecutionId nodeId
  let counts := match seed, prior with
    | some seed, _ => seed.counts
    | none, some prior => prior.execution.metadata.counts
    | none, none => .zero
  let context := (seed.bind (·.context)).or (prior.bind (·.context))
  let execution := StepExecution.new id jobExecutionId stepName (.starting supply.now counts)
  modify (insertStepExecution execution nodeId context)
  installStepSeed instanceId jobExecutionId nodeId id seed
  continueStep jobExecutionId id prior
  modify fun state =>
    { state with stepExecutionsByJob := pushUnder state.stepExecutionsByJob jobExecutionId id }
  pure execution

end Create

section Lifecycle

/-- A lifecycle result as one of the repository. -/
def ofLifecycle (result : Except LifecycleError α) : Except RepositoryError α :=
  result.mapError .lifecycle

def transitionJobExecution (id : JobExecutionId) (expected : ExecutionVersion)
    (transition : LifecycleTransition) : StagedM JobExecution := do
  let execution ← require (← get).jobExecutions[id]? (.jobExecutionNotFound id)
  let moved ← ofLifecycle (execution.transition expected transition)
  modify fun state =>
    { state with
      jobExecutions := state.jobExecutions.insert id moved,
      executionUpdatedAt := state.executionUpdatedAt.insert id transition.transitionedAt }
  pure moved

def enrichJobExitStatus (id : JobExecutionId) (expected : ExecutionVersion)
    (exitStatus : ExitStatus) : StagedM JobExecution := do
  let execution ← require (← get).jobExecutions[id]? (.jobExecutionNotFound id)
  let enriched ← ofLifecycle (execution.enrichExitStatus expected exitStatus)
  modify fun state => { state with jobExecutions := state.jobExecutions.insert id enriched }
  pure enriched

def transitionStepExecution (id : StepExecutionId) (expected : ExecutionVersion)
    (transition : LifecycleTransition) : StagedM StepExecution := do
  let execution ← require (← get).stepExecutions[id]? (.stepExecutionNotFound id)
  let moved ← ofLifecycle (execution.transition expected transition)
  modify fun state => { state with stepExecutions := state.stepExecutions.insert id moved }
  pure moved

def enrichStepExitStatus (id : StepExecutionId) (expected : ExecutionVersion)
    (exitStatus : ExitStatus) : StagedM StepExecution := do
  let execution ← require (← get).stepExecutions[id]? (.stepExecutionNotFound id)
  let enriched ← ofLifecycle (execution.enrichExitStatus expected exitStatus)
  modify fun state => { state with stepExecutions := state.stepExecutions.insert id enriched }
  pure enriched

def commitStepExecutionContext (id : StepExecutionId) (expected : ExecutionVersion)
    (context : ExecutionContext) : StagedM StepExecution := do
  let execution ← require (← get).stepExecutions[id]? (.stepExecutionNotFound id)
  ofLifecycle (validateExpectedVersion expected execution.version)
  ensure (execution.status = .started) .flowStateCorrupt
  let version ← ofLifecycle expected.next
  let updated := { execution with version }
  modify fun state =>
    { state with
      stepExecutions := state.stepExecutions.insert id updated,
      stepContexts := state.stepContexts.insert id context }
  pure updated

end Lifecycle

section Decisions

/-- Whether an execution of the same definition was seeded from this step. -/
def upgradeSeedAuthorizesSourceStep (state : MemoryState) (jobExecutionId : JobExecutionId)
    (nodeId : NodeId) (stepId : StepExecutionId) : Except RepositoryError Bool := do
  let target ← require state.executionDefinitions[jobExecutionId]? .flowStateCorrupt
  let instanceId ← instanceForExecution state jobExecutionId
  let executions ← require state.jobExecutionsByInstance[instanceId]? .flowStateCorrupt
  pure (executions.any fun executionId =>
    state.executionDefinitions[executionId]?.any (·.manifestDigest = target.manifestDigest) &&
      state.upgradeSeeds[(executionId, nodeId)]?.any (·.sourceStepExecutionId = stepId))

/-- The step behind a decision: of the same instance and node, or seeded from it. -/
def checkDecisionStep (state : MemoryState) (instanceId : JobInstanceId)
    (request : FlowDecisionRequest) : Except RepositoryError Unit :=
  match request.sourceStepExecutionId with
  | some stepId => do
    let step ← require state.stepExecutions[stepId]? .flowStateCorrupt
    let exact := state.stepLogicalIds[stepId]? = some request.sourceNodeId
    let upgraded ← upgradeSeedAuthorizesSourceStep state request.jobExecutionId
      request.sourceNodeId stepId
    let owner ← instanceForExecution state step.jobExecutionId
    ensure (owner = instanceId && (exact || upgraded)) .flowStateCorrupt
  | none => ensure (request.kind = .decider || request.kind = .splitAggregate ||
      request.kind = .nestedJobExit) .flowStateCorrupt

/-- A reused decision is of the same instance and says the same. -/
def checkReusedDecision (state : MemoryState) (instanceId : JobInstanceId)
    (request : FlowDecisionRequest) : Except RepositoryError Unit :=
  match request.reusedDecisionId with
  | some reusedId => do
    let reused ← require state.flowDecisions[reusedId]? .flowStateCorrupt
    let owner ← instanceForExecution state reused.jobExecutionId
    ensure (owner = instanceId && reused.sourceNodeId = request.sourceNodeId &&
      reused.planFingerprint = request.planFingerprint &&
      reused.inputDigest = request.inputDigest &&
      reused.observedOutcome = request.observedOutcome && reused.target = request.target)
      .flowStateCorrupt
  | none => .ok ()

/-- Decisions of an execution have distinct nodes and sequence numbers; outside
advanced flows the numbers are consecutive. -/
def checkDecisionSequence (reader : DefinitionReader) (state : MemoryState)
    (definition : DefinitionIdentity) (request : FlowDecisionRequest) :
    Except RepositoryError Unit := do
  let existing := state.flowDecisionsByJob[request.jobExecutionId]?.getD []
  let duplicate := existing.any fun id => state.flowDecisions[id]?.any fun decision =>
    decision.sourceNodeId = request.sourceNodeId || decision.sequence = request.sequence
  let inSequence ←
    if reader.advanced definition then pure true
    else do
      let expected ← require (Core.checkedAdd existing.length 1) .flowStateCorrupt
      pure (decide (request.sequence.get = expected))
  ensure (inSequence && !duplicate) .concurrentModification

def appendFlowDecision (reader : DefinitionReader) (request : FlowDecisionRequest) :
    StagedM FlowDecision := do
  let state ← get
  let instanceId ← instanceForExecution state request.jobExecutionId
  let definition ← require state.executionDefinitions[request.jobExecutionId]? .flowStateCorrupt
  ensure (definition.manifestDigest = request.planFingerprint && reader.readable definition &&
    reader.decisionMatches definition request) .flowStateCorrupt
  checkDecisionSequence reader state definition request
  checkDecisionStep state instanceId request
  checkReusedDecision state instanceId request
  let id ← nextId state.flowDecisions.maxKey?
  let decision : FlowDecision := ⟨request, id⟩
  modify fun state =>
    { state with
      flowDecisions := state.flowDecisions.insert id decision,
      flowDecisionsByJob := pushUnder state.flowDecisionsByJob request.jobExecutionId id }
  pure decision

end Decisions

section Repeats

/-- The latest repeat of a node in one execution, among steps the latest first. -/
def repeatAmongSteps (state : MemoryState) (nodeId : NodeId) (repeatId : RepeatId)
    (lineage : RepeatLineage) (steps : List StepExecutionId) : Option RepeatExecution :=
  steps.findSome? fun stepId =>
    if state.stepLogicalIds[stepId]? = some nodeId then
      state.repeatExecutions[(stepId, repeatId)]?.filter (·.lineage = lineage)
    else none

def latestRepeatSnapshotInLineage (state : MemoryState) (instanceId : JobInstanceId)
    (nodeId : NodeId) (repeatId : RepeatId) (lineage : RepeatLineage) :
    Except RepositoryError (Option RepeatExecution) := do
  let executions ← require state.jobExecutionsByInstance[instanceId]?
    (.jobInstanceNotFound instanceId)
  pure (executions.reverse.findSome? fun executionId =>
    repeatAmongSteps state nodeId repeatId lineage
      (state.stepExecutionsByJob[executionId]?.getD []).reverse)

/-- The ordinal that follows the latest repeat of the same plan and node. -/
def expectedOrdinal (prior : Option RepeatExecution) (request : RepeatCommitRequest) :
    Except RepositoryError RepeatOrdinal :=
  match prior with
  | none => .ok .initial
  | some prior =>
    if prior.planFingerprint ≠ request.planFingerprint then .error .repeatStateCorrupt
    else if prior.definitionNodeId ≠ request.definitionNodeId then .error .repeatStateCorrupt
    else if prior.decision = .complete then .error .repeatAlreadyComplete
    else require prior.ordinal.checkedNext .repeatStateCorrupt

/-- Every enclosing repeat is at the ordinal the request names. -/
def validateRepeatLineage (state : MemoryState) (request : RepeatCommitRequest) :
    RepeatLineage → List (RepeatId × RepeatOrdinal) → Except RepositoryError Unit
  | _, [] => .ok ()
  | lineage, (ancestorId, ancestorOrdinal) :: rest => do
    let prior ← latestRepeatSnapshotInLineage state request.jobInstanceId request.nodeId ancestorId
      lineage
    let expected ← expectedOrdinal prior request
    ensure (ancestorOrdinal = expected) .repeatStateCorrupt
    let child ← require (RepeatLineage.child lineage ancestorId ancestorOrdinal) .repeatStateCorrupt
    validateRepeatLineage state request child rest

def validateRepeatOwner (reader : DefinitionReader) (state : MemoryState)
    (request : RepeatCommitRequest) : RepeatManifestOwner → Except RepositoryError Unit
  | .static => ensure (request.nodeId = request.definitionNodeId) .repeatStateCorrupt
  | .partitioned manager => do
    ensure (request.nodeId ≠ request.definitionNodeId) .repeatStateCorrupt
    match (state.stepPartitions.toList.map (·.2)).filter fun partition =>
        partition.workerStepExecutionId = some request.stepExecutionId with
    | [partition] => do
      let parent ← require state.stepExecutions[partition.stepExecutionId]? .repeatStateCorrupt
      let worker ← require state.stepExecutions[request.stepExecutionId]? .repeatStateCorrupt
      let parentNode ← require state.stepLogicalIds[partition.stepExecutionId]? .repeatStateCorrupt
      ensure (parent.jobExecutionId = worker.jobExecutionId && parentNode = manager &&
        reader.partitionWorkerToken manager partition.key = request.nodeId.value)
        .repeatStateCorrupt
    | _ => .error .repeatStateCorrupt

def validateRepeatRequest (reader : DefinitionReader) (state : MemoryState)
    (request : RepeatCommitRequest) : Except RepositoryError Unit := do
  let step ← require state.stepExecutions[request.stepExecutionId]?
    (.stepExecutionNotFound request.stepExecutionId)
  ensure (state.stepLogicalIds[request.stepExecutionId]? = some request.nodeId) .repeatStateCorrupt
  let owner ← instanceForExecution state step.jobExecutionId
  ensure (owner = request.jobInstanceId) .repeatStateCorrupt
  let definition ← require state.executionDefinitions[step.jobExecutionId]? .repeatStateCorrupt
  ensure (definition.manifestDigest = request.planFingerprint && reader.readable definition)
    .repeatStateCorrupt
  let manifestOwner ← require (reader.repeatOwner definition request) .repeatStateCorrupt
  validateRepeatOwner reader state request manifestOwner
  validateRepeatLineage state request [] request.lineage

/-- The ordinal of a request is the one expected. -/
def checkOrdinal (expected : RepeatOrdinal) (request : RepeatCommitRequest) :
    Except RepositoryError Unit :=
  ensure (request.ordinal = expected)
    (.repeatOrdinalConflict expected.val request.ordinal.val)

/-- The same iteration with the same state and decision. -/
def exactReplay (existing : RepeatExecution) (request : RepeatCommitRequest) : Bool :=
  existing.jobInstanceId = request.jobInstanceId && existing.nodeId = request.nodeId &&
    existing.definitionNodeId = request.definitionNodeId &&
    existing.ordinal = request.ordinal && existing.state = request.state &&
    existing.decision = request.decision && existing.planFingerprint = request.planFingerprint

def recordIteration (request : RepeatCommitRequest) : StagedM (RepeatExecution × Bool) := do
  modify fun state =>
    { state with
      repeatExecutions :=
        state.repeatExecutions.insert (request.stepExecutionId, request.repeatId) request }
  pure (request, true)

/-- `commit_repeat_iteration`; an exact replay answers with the record it finds. The
answer says whether an iteration was recorded. -/
def commitRepeatIteration (reader : DefinitionReader) (request : RepeatCommitRequest) :
    StagedM (RepeatExecution × Bool) := do
  let state ← get
  validateRepeatRequest reader state request
  let key := (request.stepExecutionId, request.repeatId)
  match state.repeatExecutions[key]?.filter (·.lineage = request.lineage) with
  | some existing =>
    if exactReplay existing request then pure (existing, false)
    else do
      ensure (existing.ordinal ≠ request.ordinal) .repeatStateCorrupt
      ensure (existing.decision ≠ .complete) .repeatAlreadyComplete
      let expected ← require existing.ordinal.checkedNext .repeatStateCorrupt
      checkOrdinal expected request
      recordIteration request
  | none => do
    let prior ← latestRepeatSnapshotInLineage state request.jobInstanceId request.nodeId
      request.repeatId request.lineage
    let expected ← expectedOrdinal prior request
    checkOrdinal expected request
    recordIteration request

end Repeats

end OxideBatch.Repository
