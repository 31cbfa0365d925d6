import OxideBatch.Repository.State

/-! Definitions, instances, and job executions: registering, selecting, launching,
restarting, and upgrading. -/

namespace OxideBatch.Repository

open OxideBatch.Core OxideBatch.Plan
open Std (ExtTreeMap ExtTreeSet)

section Lookup

variable (state : MemoryState)

def instanceForExecution (id : JobExecutionId) : Except RepositoryError JobInstanceId :=
  match state.jobExecutions[id]? with
  | some execution => .ok execution.jobInstanceId
  | none => .error (.jobExecutionNotFound id)

def latestJobExecution (id : JobInstanceId) : Except RepositoryError (Option JobExecution) :=
  match state.jobExecutionsByInstance[id]? with
  | none =>
    if state.instancesById.contains id then .ok none else .error (.jobInstanceNotFound id)
  | some ids => .ok (ids.getLast?.bind fun id => state.jobExecutions[id]?)

/-- The last step of an execution under a logical node. -/
def lastStepUnder (executionId : JobExecutionId) (nodeId : NodeId) : Option StepExecutionId :=
  (state.stepExecutionsByJob[executionId]?.getD []).reverse.find? fun stepId =>
    state.stepLogicalIds[stepId]? = some nodeId

/-- Searches the executions of an instance, the latest first. An execution that
started from an upgrade hides the ones before it. -/
def latestFlowStepAmong (nodeId : NodeId) :
    List JobExecutionId → Except RepositoryError (Option FlowStepState)
  | [] => .ok none
  | executionId :: earlier =>
    match lastStepUnder state executionId nodeId with
    | some stepId => do
      let execution ← require state.stepExecutions[stepId]? .flowStateCorrupt
      pure (some ⟨nodeId, execution, state.stepContexts[stepId]?⟩)
    | none =>
      match state.upgradeSeeds[(executionId, nodeId)]? with
      | some seed => do
        let source ← require state.stepExecutions[seed.sourceStepExecutionId]? .flowStateCorrupt
        pure (some ⟨nodeId, source, seed.context⟩)
      | none =>
        if state.upgradeSeeds.toList.any fun entry => entry.1.1 = executionId then .ok none
        else latestFlowStepAmong nodeId earlier

def latestFlowStepSnapshot (instanceId : JobInstanceId) (nodeId : NodeId) :
    Except RepositoryError (Option FlowStepState) := do
  let executions ← require state.jobExecutionsByInstance[instanceId]?
    (.jobInstanceNotFound instanceId)
  latestFlowStepAmong state nodeId executions.reverse

end Lookup

section Definitions

def ensureDefinition (jobName : JobName) (definition : DefinitionIdentity) : StagedM Unit := do
  if definition.jobName.any (· ≠ jobName) then
    throw (.definitionJobMismatch jobName (definition.jobName.getD jobName))
  else
    let key := (jobName, definition.revision)
    match (← get).definitions[key]? with
    | some existing =>
      if existing.manifestDigest ≠ definition.manifestDigest then
        throw (.definitionDrift jobName definition.revision)
      else pure ()
    | none =>
      modify fun state =>
        let named := state.registerJobName jobName
        { named with definitions := named.definitions.insert key definition }

def registerDefinition (registration : DefinitionRegistration) :
    StagedM DefinitionRegistration := do
  ensureDefinition registration.jobName registration.definition
  let key := (registration.jobName, registration.definition.revision)
  match (← get).definitionRegistry[key]? with
  | some existing =>
    if existing.definition.manifestDigest ≠ registration.definition.manifestDigest then
      throw (.definitionDrift registration.jobName registration.definition.revision)
    else if existing.artifact ≠ registration.artifact then
      throw (.definitionArtifactDrift registration.jobName registration.definition.revision)
    else pure existing
  | none => do
    modify fun state =>
      { state with
        definitionExplorerOrder :=
          state.definitionExplorerOrder.insert key (nextOrder state.definitionExplorerOrder),
        definitionRegistry := state.definitionRegistry.insert key registration }
    pure registration

def registerDefinitionUpgrade (jobName : JobName) (upgrade : DefinitionUpgrade) :
    StagedM Unit := do
  ensureDefinition jobName upgrade.source
  ensureDefinition jobName upgrade.target
  let key := (jobName, upgrade.source.manifestDigest, upgrade.target.manifestDigest)
  match (← get).definitionUpgrades[key]? with
  | some existing =>
    if existing ≠ upgrade then throw (.definitionUpgradeConflict jobName) else pure ()
  | none => modify fun state =>
    { state with definitionUpgrades := state.definitionUpgrades.insert key upgrade }

end Definitions

section Instances

/-- `select_or_create_job_instance`: the instance, existing or created. -/
def selectOrCreateJobInstance (supply : Supply) (key : JobInstanceKey) : StagedM JobInstance := do
  let state ← get
  match state.instancesByKey[key]? with
  | some id => require state.instancesById[id]? (.jobInstanceNotFound id)
  | none => do
    let id ← require supply.jobInstanceId (.identifier .jobInstance)
    if state.instancesById.contains id then throw (.duplicateIdentifier .jobInstance id.get)
    else do
      modify fun state =>
        let created :=
          { state with
            instancesByKey := state.instancesByKey.insert key id,
            instancesById := state.instancesById.insert id ⟨id, key⟩,
            instanceCreatedAt := state.instanceCreatedAt.insert id supply.instanceCreatedAt }
        let named := created.registerJobName key.jobName
        { named with jobExecutionsByInstance := named.jobExecutionsByInstance.insert id [] }
      pure ⟨id, key⟩

end Instances

section Scopes

/-- The provenance an owner holds, by key. -/
def provenanceOf (state : MemoryState) (ownerJob : JobExecutionId)
    (ownerStep : Option StepExecutionId) : List ScopeResolutionProvenance :=
  (state.scopeResolutionProvenance.toList.map (·.2)).filter fun entry =>
    entry.ownerJobExecutionId = ownerJob && entry.ownerStepExecutionId = ownerStep

/-- The instance of the execution a provenance names besides its owner. -/
def sourceInstance (state : MemoryState) (entry : ScopeResolutionProvenance) :
    Except RepositoryError (Option JobInstanceId) :=
  match entry.source with
  | .jobParameter jobExecutionId _ | .jobContext jobExecutionId _ _ _ _ =>
    if jobExecutionId = entry.ownerJobExecutionId then .ok none
    else (instanceForExecution state jobExecutionId).map some
  | .stepContext _ (some stepId) _ _ _ _ => do
    let step ← require state.stepExecutions[stepId]? .scopeResolutionStateCorrupt
    (instanceForExecution state step.jobExecutionId).map some
  | .stepContext _ none _ _ _ _ | .framework .. => .ok none

def validateScopeProvenanceSource (state : MemoryState) (entry : ScopeResolutionProvenance) :
    Except RepositoryError Unit := do
  let ownerInstance ← instanceForExecution state entry.ownerJobExecutionId
  let source ← sourceInstance state entry
  ensure (!source.any (· ≠ ownerInstance)) .scopeResolutionStateCorrupt

/-- A framework value is rebound to its new owner; any other source stays. -/
def reboundSource (targetJob : JobExecutionId) (targetStep : Option StepExecutionId) :
    ScopeResolutionSource → ScopeResolutionSource
  | .framework source _ _ => .framework source targetJob targetStep
  | source => source

def copyForwardScopeResolutionProvenance (sourceJob : JobExecutionId)
    (sourceStep : Option StepExecutionId) (targetJob : JobExecutionId)
    (targetStep : Option StepExecutionId) : StagedM Unit := do
  (provenanceOf (← get) sourceJob sourceStep).forM fun entry => do
    let rebound ← require
      (ScopeResolutionProvenance.new entry.scope entry.component entry.input targetJob targetStep
        (reboundSource targetJob targetStep entry.source)) .scopeResolutionStateCorrupt
    let state ← get
    validateScopeProvenanceSource state rebound
    if state.scopeResolutionProvenance.contains rebound.key then throw .scopeResolutionStateCorrupt
    else modify fun state =>
      { state with
        scopeResolutionProvenance := state.scopeResolutionProvenance.insert rebound.key rebound }

end Scopes

section Upgrades

/-- The seeds of an upgrade by target node. -/
abbrev NodeSeeds := ExtTreeMap NodeId MemoryUpgradeNodeSeed

/-- The one declared transform of a state, if there is one. -/
def upgradeTransform (upgrade : DefinitionUpgrade) (sourceNode : NodeId) (kind : DefinitionStateKind)
    (stateId : Option String) : Except RepositoryError (Option DefinitionStateTransform) :=
  match upgrade.transforms.filter fun transform =>
      transform.sourceNode = sourceNode && transform.kind = kind &&
        stateId.all (transform.stateId.value = ·) with
  | [] => .ok none
  | [transform] => .ok (some transform)
  | _ :: _ :: _ => .error .definitionUpgradeFailed

def transformContext (upgrade : DefinitionUpgradeExecution) (transform : DefinitionStateTransform)
    (source : ExecutionContext) : Except RepositoryError ExecutionContext :=
  if source.schemaId ≠ transform.sourceSchema ∨ source.schemaVersion ≠ transform.sourceVersion.get then
    .error .definitionUpgradeFailed
  else require (upgrade.transform transform source) .definitionUpgradeFailed

/-- A state under the upgrade: transformed where a transform is declared, else kept. -/
def upgradeState (upgrade : DefinitionUpgradeExecution) (sourceNode : NodeId)
    (kind : DefinitionStateKind) (stateId : Option String) (source : ExecutionContext) :
    Except RepositoryError ExecutionContext := do
  match ← upgradeTransform upgrade.upgrade sourceNode kind stateId with
  | some transform => transformContext upgrade transform source
  | none => pure source

/-- The source of a scope seed: a step context moves to the mapped node and schema. -/
def scopeSeedSource (upgrade : DefinitionUpgrade) (ownerStep : Option StepExecutionId) :
    ScopeResolutionSource → Except RepositoryError ScopeResolutionSource
  | .stepContext node stepId version schema schemaVersion path => do
    ensure (!(ownerStep.isNone && stepId.isSome)) .definitionUpgradeFailed
    let target ← require upgrade.nodeMapping[node]? .definitionUpgradeFailed
    match ← upgradeTransform upgrade node .executionContext none with
    | some transform =>
      pure (.stepContext target stepId version transform.targetSchema
        transform.targetVersion.get path)
    | none => pure (.stepContext target stepId version schema schemaVersion path)
  | source => .ok source

def buildScopeSeeds (state : MemoryState) (ownerJob : JobExecutionId)
    (ownerStep : Option StepExecutionId) (upgrade : DefinitionUpgrade) :
    Except RepositoryError (List MemoryScopeSeed) :=
  (provenanceOf state ownerJob ownerStep).mapM fun entry => do
    let source ← scopeSeedSource upgrade ownerStep entry.source
    pure ⟨entry.scope, entry.component, entry.input, source⟩

def resolveScopeSeedSource (state : MemoryState) (jobExecutionId : JobExecutionId)
    (ownerStep : Option StepExecutionId) :
    ScopeResolutionSource → Except RepositoryError ScopeResolutionSource
  | .stepContext node (some _) _ schema schemaVersion path => do
    let stepId ← require (lastStepUnder state jobExecutionId node) .definitionUpgradeFailed
    let step ← require state.stepExecutions[stepId]? .definitionUpgradeFailed
    pure (.stepContext node (some stepId) (some step.version) schema schemaVersion path)
  | .stepContext node none _ schema schemaVersion path =>
    .ok (.stepContext node none none schema schemaVersion path)
  | .framework source _ _ => .ok (.framework source jobExecutionId ownerStep)
  | source => .ok source

/-- `materialize_scope_seeds`: all entries are built before the first is stored. -/
def materializeScopeSeeds (jobExecutionId : JobExecutionId) (ownerStep : Option StepExecutionId)
    (seeds : List MemoryScopeSeed) : StagedM Unit := do
  let state ← get
  let entries ← seeds.mapM fun seed => do
    let source ← resolveScopeSeedSource state jobExecutionId ownerStep seed.source
    require (ScopeResolutionProvenance.new seed.scope seed.component seed.input jobExecutionId
      ownerStep source) .definitionUpgradeFailed
  modify fun state =>
    { state with
      scopeResolutionProvenance := entries.foldl (fun table entry => table.insert entry.key entry)
        state.scopeResolutionProvenance }

/-- The repeats of a step under the upgrade, at the target node. -/
def upgradeRepeats (state : MemoryState) (upgrade : DefinitionUpgradeExecution)
    (sourceNode targetNode : NodeId) (stepId : StepExecutionId) :
    Except RepositoryError (List RepeatExecution) :=
  (state.repeatExecutions.toList.filter (·.1.1 = stepId)).mapM fun entry => do
    let repeated := entry.2
    let content ← upgradeState upgrade sourceNode .repeat (some repeated.repeatId.value)
      repeated.state
    pure
      { repeated with
        nodeId := targetNode
        definitionNodeId := targetNode
        state := content
        planFingerprint := upgrade.upgrade.target.manifestDigest }

def buildUpgradeSeed (state : MemoryState) (instanceId : JobInstanceId)
    (upgrade : DefinitionUpgradeExecution) (seeds : NodeSeeds)
    (mapping : NodeId × NodeId) : Except RepositoryError (NodeSeeds) := do
  match ← latestFlowStepSnapshot state instanceId mapping.1 with
  | none => pure seeds
  | some prior =>
    let context ← match prior.context with
      | some source => do
        let content ← upgradeState upgrade mapping.1 .executionContext none source
        pure (some content)
      | none => pure none
    let repeats ← upgradeRepeats state upgrade mapping.1 mapping.2 prior.execution.id
    let scope ← buildScopeSeeds state prior.execution.jobExecutionId (some prior.execution.id)
      upgrade.upgrade
    pure (seeds.insert mapping.2
      ⟨prior.execution.id, prior.execution.metadata.counts, context, repeats, scope⟩)

def buildUpgradeSeeds (state : MemoryState) (instanceId : JobInstanceId)
    (upgrade : DefinitionUpgradeExecution) :
    Except RepositoryError (NodeSeeds) :=
  upgrade.upgrade.nodeMapping.toList.foldlM (buildUpgradeSeed state instanceId upgrade) ∅

end Upgrades

section Create

/-- A new attempt follows only a stopped or failed one. -/
def checkRestart (instanceId : JobInstanceId) (latest : JobExecution) :
    Except RepositoryError Unit :=
  match latest.status with
  | .stopped | .failed => .ok ()
  | .completed => .error (.completedInstance instanceId)
  | .abandoned => .error (.abandonedInstance instanceId)
  | status => .error (.executionAlreadyActive instanceId latest.id status)

/-- A restart keeps its definition, or changes it along a registered upgrade. -/
def checkDefinition (state : MemoryState) (instanceId : JobInstanceId) (jobName : JobName)
    (latest : JobExecution) (definition : DefinitionIdentity)
    (upgrade : Option DefinitionUpgradeExecution) : Except RepositoryError Unit := do
  let incompatible := RepositoryError.incompatibleDefinition instanceId
  let previous ← require state.executionDefinitions[latest.id]? incompatible
  if previous.manifestDigest ≠ definition.manifestDigest then
    let selected ← require upgrade incompatible
    let edge := selected.upgrade
    let registered :=
      state.definitionUpgrades[(jobName, previous.manifestDigest, definition.manifestDigest)]?
    ensure (edge.source = previous && edge.target = definition && registered = some edge)
      incompatible
  else ensure upgrade.isNone incompatible

/-- The rows of a new job execution, before its instance lists it. -/
def insertJobExecution (execution : JobExecution) (attempt : Nat) (definition : DefinitionIdentity)
    (state : MemoryState) : MemoryState :=
  { state with
    executionUpdatedAt :=
      state.executionUpdatedAt.insert execution.id execution.metadata.timestamps.createdAt,
    jobExecutions := state.jobExecutions.insert execution.id execution,
    executionAttempts := state.executionAttempts.insert execution.id attempt,
    nextExecutionAttemptByInstance :=
      state.nextExecutionAttemptByInstance.insert execution.jobInstanceId attempt,
    executionDefinitions := state.executionDefinitions.insert execution.id definition }

/-- What a new attempt takes over through an upgrade. -/
def installUpgrade (id : JobExecutionId) (source : Option JobExecutionId)
    (jobScope : List MemoryScopeSeed) (seeds : NodeSeeds) : StagedM Unit := do
  materializeScopeSeeds id none jobScope
  modify fun state =>
    { state with
      upgradeSources := match source with
        | some source => state.upgradeSources.insert id source
        | none => state.upgradeSources
      upgradeSeeds := seeds.toList.foldl (fun table seed => table.insert (id, seed.1) seed.2)
        state.upgradeSeeds }

/-- The seeds of an upgrade: of each mapped node, and of the job scope. -/
def collectSeeds (state : MemoryState) (instanceId : JobInstanceId) (source : Option JobExecutionId)
    (upgrade : DefinitionUpgradeExecution) :
    Except RepositoryError (NodeSeeds × List MemoryScopeSeed) := do
  let seeds ← buildUpgradeSeeds state instanceId upgrade
  let jobScope ← match source with
    | some source => buildScopeSeeds state source none upgrade.upgrade
    | none => pure []
  pure (seeds, jobScope)

/-- `next_execution_attempt_by_instance` and one more, in `u64`. -/
def nextAttempt (state : MemoryState) (instanceId : JobInstanceId) : Except RepositoryError Nat :=
  require (Core.checkedAdd (state.nextExecutionAttemptByInstance[instanceId]?.getD 0) 1)
    .scopeResolutionStateCorrupt

/-- What the latest execution of the instance allows. -/
def checkLatest (state : MemoryState) (instanceId : JobInstanceId) (jobName : JobName)
    (latest : Option JobExecution) (definition : DefinitionIdentity)
    (upgrade : Option DefinitionUpgradeExecution) : Except RepositoryError Unit :=
  match latest with
  | some latest => do
    checkRestart instanceId latest
    checkDefinition state instanceId jobName latest definition upgrade
  | none => .ok ()

/-- Without an upgrade there are no seeds. -/
def seedsOf (state : MemoryState) (instanceId : JobInstanceId) (source : Option JobExecutionId)
    (upgrade : Option DefinitionUpgradeExecution) :
    Except RepositoryError (NodeSeeds × List MemoryScopeSeed) :=
  match upgrade with
  | some upgrade => collectSeeds state instanceId source upgrade
  | none => .ok (∅, [])

/-- The parameters of the execution that is restarted; those of the launch replace
them. -/
def inheritParameters (id : JobExecutionId) (parameters : Option JobParameters) : StagedM Unit :=
  match parameters with
  | some parameters =>
    modify fun state => { state with jobParameters := state.jobParameters.insert id parameters }
  | none => pure ()

/-- What a restart takes over from its source: through the seeds of an upgrade, or
the scope of the source itself. -/
def inheritState (id : JobExecutionId) (source : Option JobExecutionId) (upgraded : Bool)
    (seeds : NodeSeeds × List MemoryScopeSeed) (parameters : Option JobParameters) :
    StagedM Unit :=
  if upgraded then do
    installUpgrade id source seeds.2 seeds.1
    inheritParameters id parameters
  else do
    inheritParameters id parameters
    match source with
    | some source => copyForwardScopeResolutionProvenance source none id none
    | none => pure ()

/-- The next attempt of an instance, its definition being registered. -/
def createAttempt (supply : Supply) (instanceId : JobInstanceId) (jobName : JobName)
    (definition : DefinitionIdentity) (upgrade : Option DefinitionUpgradeExecution) :
    StagedM JobExecution := do
  let state ← get
  let latest ← latestJobExecution state instanceId
  checkLatest state instanceId jobName latest definition upgrade
  let source := latest.map (·.id)
  let seeds ← seedsOf state instanceId source upgrade
  let id ← require supply.jobExecutionId (.identifier .jobExecution)
  ensure (!state.jobExecutions.contains id) (.duplicateIdentifier .jobExecution id.get)
  let attempt ← nextAttempt state instanceId
  let execution := JobExecution.new id instanceId (.starting supply.now .zero)
  modify (insertJobExecution execution attempt definition)
  inheritState id source upgrade.isSome seeds (source.bind fun source => state.jobParameters[source]?)
  let listed ← require (← get).jobExecutionsByInstance[instanceId]? (.jobInstanceNotFound instanceId)
  modify fun state =>
    { state with
      jobExecutionsByInstance := state.jobExecutionsByInstance.insert instanceId (listed ++ [id]) }
  pure execution

/-- `create_job_execution` under a definition and, for a changed one, an upgrade. -/
def createJobExecution (supply : Supply) (instanceId : JobInstanceId)
    (definition : DefinitionIdentity) (upgrade : Option DefinitionUpgradeExecution) :
    StagedM JobExecution := do
  let jobInstance ← require (← get).instancesById[instanceId]? (.jobInstanceNotFound instanceId)
  ensureDefinition jobInstance.key.jobName definition
  createAttempt supply instanceId jobInstance.key.jobName definition upgrade

/-- `create_job_execution_with_definition`, with or without parameters. -/
def createJobExecutionWithDefinition (supply : Supply) (instanceId : JobInstanceId)
    (definition : DefinitionIdentity) (parameters : Option JobParameters) :
    StagedM JobExecution := do
  let execution ← createJobExecution supply instanceId definition none
  inheritParameters execution.id parameters
  pure execution

/-- `create_job_execution_with_upgrade`, with or without parameters. -/
def createJobExecutionWithUpgrade (supply : Supply) (instanceId : JobInstanceId)
    (upgrade : DefinitionUpgradeExecution) (parameters : Option JobParameters) :
    StagedM JobExecution := do
  let execution ← createJobExecution supply instanceId upgrade.upgrade.target (some upgrade)
  inheritParameters execution.id parameters
  pure execution

end Create

end OxideBatch.Repository
