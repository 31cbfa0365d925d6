import OxideBatch.Plan.Upgrade
import OxideBatch.Repository.Execution

/-! The durable records around executions: definitions, scope provenance, nested
links, partitions, decisions, repeats, forks, and the records of operators. -/

namespace OxideBatch.Repository

open OxideBatch.Core OxideBatch.Plan
open Std (ExtTreeMap ExtTreeSet)

section Parameters

inductive ParameterValue where
  | string (value : String)
  | signed (value : Int)
  | unsigned (value : Nat)
  | bool (value : Bool)
  deriving DecidableEq

/-- The rank of the variant and its content. -/
def ParameterValue.encode : ParameterValue → Nat × String × Int
  | .string value => (0, value, 0)
  | .signed value => (1, "", value)
  | .unsigned value => (2, "", value)
  | .bool value => (3, "", value.toNat)

theorem ParameterValue.encode_injective : Function.Injective encode := by
  intro left right same
  cases left <;> cases right <;> simp [encode] at same ⊢
  · exact same
  · exact same
  · omega
  · rename_i first second
    cases first <;> cases second <;> simp at same ⊢

instance : Ord ParameterValue := ⟨compareOn ParameterValue.encode⟩

instance : Std.TransOrd ParameterValue := transCmp_compareOn

instance : Std.LawfulEqOrd ParameterValue := lawfulEqCmp_compareOn ParameterValue.encode_injective

structure JobParameter where
  value : ParameterValue
  identifying : Bool
  deriving DecidableEq

abbrev JobParameters := ExtTreeMap ParameterName JobParameter

/-- The job name and the identifying parameters, by name. -/
structure JobInstanceKey where
  jobName : JobName
  identifyingParameters : List (ParameterName × ParameterValue)
  deriving DecidableEq

namespace JobInstanceKey

def new (jobName : JobName) (parameters : JobParameters) : JobInstanceKey :=
  ⟨jobName, parameters.toList.filterMap fun entry =>
    if entry.2.identifying then some (entry.1, entry.2.value) else none⟩

def parts (key : JobInstanceKey) : JobName × List (ParameterName × ParameterValue) :=
  (key.jobName, key.identifyingParameters)

private theorem parts_injective : Function.Injective parts := by
  intro left right same
  cases left
  cases right
  simpa [parts] using same

instance : Ord JobInstanceKey := ⟨compareOn parts⟩

instance : Std.TransOrd JobInstanceKey := transCmp_compareOn

instance : Std.LawfulEqOrd JobInstanceKey := lawfulEqCmp_compareOn parts_injective

end JobInstanceKey

structure JobInstance where
  id : JobInstanceId
  key : JobInstanceKey
  deriving DecidableEq

end Parameters

section Definitions

/-- A versioned state envelope; the repository never looks into its payload. -/
structure ExecutionContext where
  schemaId : StateSchemaId
  schemaVersion : Nat
  encodedLen : Nat
  payload : List UInt8
  deriving DecidableEq

structure DefinitionRegistration where
  jobName : JobName
  definition : DefinitionIdentity
  artifact : DefinitionArtifactId
  deriving DecidableEq

/-- An edge with its transformers. `transform` is the transformer of a declared
transform, applied to the payload of a context of its source schema, with the new
envelope around the result; it is `none` where any part of that fails. -/
structure DefinitionUpgradeExecution where
  upgrade : DefinitionUpgrade
  transform : DefinitionStateTransform → ExecutionContext → Option ExecutionContext

end Definitions

section Scopes

inductive ScopeFrameworkSource where
  | jobInstanceId
  | jobExecutionId
  | stepExecutionId
  | attempt
  | definitionRevision
  | definitionFingerprint
  | logicalNodeId
  | stepName
  deriving DecidableEq

inductive ScopeResolutionSource where
  | jobParameter (jobExecutionId : JobExecutionId) (parameter : ParameterName)
  | jobContext (jobExecutionId : JobExecutionId) (executionVersion : ExecutionVersion)
      (schema : StateSchemaId) (schemaVersion : Nat) (path : List String)
  | stepContext (node : NodeId) (stepExecutionId : Option StepExecutionId)
      (executionVersion : Option ExecutionVersion) (schema : StateSchemaId) (schemaVersion : Nat)
      (path : List String)
  | framework (source : ScopeFrameworkSource) (jobExecutionId : JobExecutionId)
      (stepExecutionId : Option StepExecutionId)
  deriving DecidableEq

/-- `selector_path_is_valid`. -/
def selectorPathIsValid (segments : List String) : Bool :=
  !segments.isEmpty && segments.length ≤ 32 &&
    (segments.map String.utf8ByteSize).sum + (segments.length - 1) ≤ 1024 &&
    segments.all fun segment =>
      !segment.toList.isEmpty && !segment.toList.head?.any isWhiteSpace &&
        !segment.toList.getLast?.any isWhiteSpace && !segment.toList.any isControl

def ScopeResolutionSource.validShape : ScopeResolutionSource → Bool
  | .jobParameter .. | .framework .. => true
  | .jobContext _ _ _ _ path => selectorPathIsValid path
  | .stepContext _ stepExecutionId executionVersion _ _ path =>
    selectorPathIsValid path && stepExecutionId.isSome == executionVersion.isSome

/-- The owner of a scope has the shape of its kind, and a framework value is its own. -/
def validOwner (scope : ScopeKind) (ownerJob : JobExecutionId) (ownerStep : Option StepExecutionId)
    (source : ScopeResolutionSource) : Bool :=
  (match scope with
    | .job => ownerStep.isNone
    | .step => ownerStep.isSome) &&
  match source with
  | .framework _ jobExecutionId stepExecutionId =>
    jobExecutionId = ownerJob && stepExecutionId = ownerStep
  | _ => true

/-- One durable input provenance. -/
structure ScopeResolutionProvenance where
  scope : ScopeKind
  component : ScopedComponentId
  input : ParameterName
  ownerJobExecutionId : JobExecutionId
  ownerStepExecutionId : Option StepExecutionId
  source : ScopeResolutionSource
  owned : validOwner scope ownerJobExecutionId ownerStepExecutionId source = true
  shaped : source.validShape = true
  deriving DecidableEq

abbrev ScopeKey :=
  ScopeKind × ScopedComponentId × ParameterName × JobExecutionId × Option StepExecutionId

instance transOrdScopeKey : Std.TransOrd (ScopeKind × ScopedComponentId × ParameterName ×
    JobExecutionId × Option StepExecutionId) := inferInstance

namespace ScopeResolutionProvenance

def new (scope : ScopeKind) (component : ScopedComponentId) (input : ParameterName)
    (ownerJob : JobExecutionId) (ownerStep : Option StepExecutionId)
    (source : ScopeResolutionSource) : Option ScopeResolutionProvenance :=
  if owned : validOwner scope ownerJob ownerStep source = true then
    if shaped : source.validShape = true then
      some ⟨scope, component, input, ownerJob, ownerStep, source, owned, shaped⟩
    else none
  else none

def key (entry : ScopeResolutionProvenance) : ScopeKey :=
  (entry.scope, entry.component, entry.input, entry.ownerJobExecutionId,
    entry.ownerStepExecutionId)

end ScopeResolutionProvenance

structure MemoryScopeSeed where
  scope : ScopeKind
  component : ScopedComponentId
  input : ParameterName
  source : ScopeResolutionSource
  deriving DecidableEq

end Scopes

section Repeats

/-- `u32`. -/
abbrev RepeatOrdinal := Fin (2 ^ 32)

def RepeatOrdinal.initial : RepeatOrdinal := ⟨0, by decide⟩

def RepeatOrdinal.checkedNext (ordinal : RepeatOrdinal) : Option RepeatOrdinal :=
  if within : ordinal.val + 1 < 2 ^ 32 then some ⟨ordinal.val + 1, within⟩ else none

/-- The enclosing repeats with their ordinals, outermost first. -/
abbrev RepeatLineage := List (RepeatId × RepeatOrdinal)

def maxRepeatNestingDepth : Nat := 8

def RepeatLineage.child (lineage : RepeatLineage) (id : RepeatId) (ordinal : RepeatOrdinal) :
    Option RepeatLineage :=
  if maxRepeatNestingDepth - 1 ≤ lineage.length ∨ lineage.any (·.1 = id) then none
  else some (lineage ++ [(id, ordinal)])

inductive RepeatDecision where
  | continue
  | complete
  deriving DecidableEq

structure RepeatExecution where
  jobInstanceId : JobInstanceId
  nodeId : NodeId
  definitionNodeId : NodeId
  stepExecutionId : StepExecutionId
  repeatId : RepeatId
  lineage : RepeatLineage
  ordinal : RepeatOrdinal
  state : ExecutionContext
  decision : RepeatDecision
  planFingerprint : Digest
  deriving DecidableEq

/-- A repeat iteration to commit: the record it becomes. -/
abbrev RepeatCommitRequest := RepeatExecution

/-- Where a definition declares a repeat: on its node, or on the worker of a manager. -/
inductive RepeatManifestOwner where
  | static
  | partitioned (manager : NodeId)
  deriving DecidableEq

structure MemoryUpgradeNodeSeed where
  sourceStepExecutionId : StepExecutionId
  counts : ExecutionCounts
  context : Option ExecutionContext
  repeats : List RepeatExecution
  scope : List MemoryScopeSeed
  deriving DecidableEq

end Repeats

section Flows

structure FlowStepState where
  nodeId : NodeId
  execution : StepExecution
  context : Option ExecutionContext

inductive FlowTransitionKind where
  | stepExit
  | decider
  | completedStepReuse
  | splitAggregate
  | nestedJobExit
  deriving DecidableEq

structure FlowDecisionRequest where
  jobExecutionId : JobExecutionId
  sequence : FlowDecisionSequence
  sourceNodeId : NodeId
  sourceStepExecutionId : Option StepExecutionId
  kind : FlowTransitionKind
  observedOutcome : ExitCode
  target : FlowTarget
  planFingerprint : Digest
  inputDigest : Digest
  reusedDecisionId : Option FlowDecisionId
  decidedAt : SystemTime
  deriving DecidableEq

structure FlowDecision extends FlowDecisionRequest where
  id : FlowDecisionId
  deriving DecidableEq

structure NestedJobTerminalObservation where
  status : BatchStatus
  exitStatus : ExitStatus
  observedAt : SystemTime
  deriving DecidableEq

structure NestedJobLink where
  parentJobInstanceId : JobInstanceId
  parentJobExecutionId : JobExecutionId
  nodeId : NodeId
  childDefinition : DefinitionIdentity
  childJobInstanceId : JobInstanceId
  childJobExecutionId : JobExecutionId
  linkedAt : SystemTime
  terminal : Option NestedJobTerminalObservation
  deriving DecidableEq

structure NestedJobLinkRequest where
  parentJobInstanceId : JobInstanceId
  parentJobExecutionId : JobExecutionId
  nodeId : NodeId
  childDefinition : DefinitionIdentity
  childParameters : JobParameters
  linkedAt : SystemTime

/-- The new lineage of a fork; `context` is the source step and the schema its
context was transformed to. -/
structure ForkContextTransform where
  sourceStepExecutionId : StepExecutionId
  sourceStepVersion : ExecutionVersion
  descriptor : DefinitionStateTransform
  deriving DecidableEq

structure ForkLineage where
  operationId : OperationId
  sourceExecutionId : JobExecutionId
  sourceVersion : ExecutionVersion
  sourceDefinitionDigest : Digest
  sourceStateDigest : Digest
  target : DefinitionRegistration
  targetInstanceId : JobInstanceId
  targetExecutionId : JobExecutionId
  targetParametersDigest : Digest
  contextTransform : Option ForkContextTransform
  deriving DecidableEq

end Flows

end OxideBatch.Repository
