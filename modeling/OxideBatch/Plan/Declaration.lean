import OxideBatch.Plan.Pattern
import OxideBatch.Core.Definition

/-! What the nodes of a flow declare: step components and their policies, repeat
wrappers, child jobs, custom leaves, and scoped components. -/

namespace OxideBatch.Plan

open OxideBatch.Core

/-- `MAX_SCOPED_COMPONENTS`. -/
def maxScopedComponents : Nat := 256

def maxRepeatInterceptors : Nat := 32

def maxRepeatNestingDepth : Nat := 8

abbrev NodeId := Token 128

abbrev RepeatId := Token 128

abbrev ScopedComponentId := Token 128

inductive LocalFailurePolicy where
  | cancelSiblings
  | drainSiblings
  deriving DecidableEq, Repr

def LocalFailurePolicy.asStr : LocalFailurePolicy → String
  | .cancelSiblings => "cancel_siblings"
  | .drainSiblings => "drain_siblings"

inductive StepComponents where
  | tasklet (revision : ComponentRevision)
  | chunk (size : ChunkSize) (revisions : ChunkComponentRevisions)

structure RepeatPolicyDefinition where
  kind : Token 128
  revision : ComponentRevision
  configuration : Token 128
  deriving DecidableEq

structure RepeatInterceptorDefinition where
  id : Token 128
  kind : Token 128
  revision : ComponentRevision
  deriving DecidableEq

structure RepeatStateSchema where
  schema : StateSchemaId
  version : StateSchemaVersion
  deriving DecidableEq

/-- One repeat wrapper, without the one it wraps. -/
structure RepeatLevel where
  id : RepeatId
  policy : RepeatPolicyDefinition
  interceptors : List RepeatInterceptorDefinition
  state : RepeatStateSchema
  fewInterceptors : interceptors.length ≤ maxRepeatInterceptors
  distinctInterceptors : (interceptors.map (·.id)).Nodup

/-- A repeat wrapper and the chain of wrappers nested in it. -/
structure RepeatDefinition where
  outer : RepeatLevel
  nested : List RepeatLevel
  shallow : nested.length < maxRepeatNestingDepth
  distinct : ((outer :: nested).map (·.id)).Nodup

/-- The wrapper identities, outermost first. -/
def RepeatDefinition.ids (definition : RepeatDefinition) : List RepeatId :=
  (definition.outer :: definition.nested).map (·.id)

/-- A tasklet or chunk step. -/
structure StepNode where
  id : NodeId
  stepName : StepName
  components : StepComponents
  start : StartControls
  fault : Option FaultPolicy
  listeners : List ComponentRevision
  repeatDefinition : Option RepeatDefinition

/-- The chain of its repeat definition, outermost first. -/
def StepNode.repeatIds (step : StepNode) : List RepeatId :=
  (step.repeatDefinition.map (·.ids)).getD []

def StepNode.restartPolicy (step : StepNode) : RestartPolicy := step.start.restartPolicy

structure DecisionNode where
  id : NodeId
  revision : Token 128
  inputVersion : Positive
  deriving DecidableEq

inductive FrameworkParameterSource where
  | parentJobInstanceId
  | parentJobExecutionId
  | parentAttempt
  | parentDefinitionRevision
  | parentDefinitionFingerprint
  | nestedJobNodeId
  deriving DecidableEq, Repr

def FrameworkParameterSource.asStr : FrameworkParameterSource → String
  | .parentJobInstanceId => "parent_job_instance_id"
  | .parentJobExecutionId => "parent_job_execution_id"
  | .parentAttempt => "parent_attempt"
  | .parentDefinitionRevision => "parent_definition_revision"
  | .parentDefinitionFingerprint => "parent_definition_fingerprint"
  | .nestedJobNodeId => "nested_job_node_id"

inductive NestedJobParameterSource where
  | parentParameter (name : ParameterName)
  | parentJobContext (schema : StateSchemaId) (schemaVersion : StateSchemaVersion)
      (path : List String)
  | parentStepContext (node : NodeId) (schema : StateSchemaId)
      (schemaVersion : StateSchemaVersion) (path : List String)
  | framework (source : FrameworkParameterSource)
  deriving DecidableEq

inductive ParameterCoercion where
  | exact
  | stringToI64
  | stringToU64
  | stringToBool
  | i64ToU64
  | u64ToI64
  deriving DecidableEq, Repr

def ParameterCoercion.asStr : ParameterCoercion → String
  | .exact => "exact"
  | .stringToI64 => "string_to_i64"
  | .stringToU64 => "string_to_u64"
  | .stringToBool => "string_to_bool"
  | .i64ToU64 => "i64_to_u64"
  | .u64ToI64 => "u64_to_i64"

inductive MissingParameterPolicy where
  | fail
  | typeDefault
  deriving DecidableEq, Repr

def MissingParameterPolicy.asStr : MissingParameterPolicy → String
  | .fail => "fail"
  | .typeDefault => "type_default"

inductive ParameterRole where
  | identifying
  | nonIdentifying
  deriving DecidableEq, Repr

def ParameterRole.asStr : ParameterRole → String
  | .identifying => "identifying"
  | .nonIdentifying => "non_identifying"

structure NestedJobParameterMapping where
  target : ParameterName
  role : ParameterRole
  source : NestedJobParameterSource
  expected : ParameterValueKind
  coercion : ParameterCoercion
  missing : MissingParameterPolicy
  deriving DecidableEq

/-- A child-job boundary; `new` sorts its mappings by their distinct targets. -/
structure NestedJobNode where
  id : NodeId
  childDefinition : DefinitionIdentity
  mappingRevision : ComponentRevision
  mappings : List NestedJobParameterMapping
  deriving DecidableEq

structure CustomLeafNode where
  id : NodeId
  stepName : StepName
  kind : Token 128
  handlerRevision : ComponentRevision
  stateSchemaId : StateSchemaId
  stateSchemaVersion : StateSchemaVersion
  start : StartControls
  fault : Option FaultPolicy
  listeners : List ComponentRevision

structure JoinNode where
  id : NodeId
  deriving DecidableEq

structure PartitionedStepNode where
  id : NodeId
  stepName : StepName
  worker : StepNode
  partitioner : ComponentRevision
  aggregation : ComponentRevision
  partitions : Nat
  failurePolicy : LocalFailurePolicy
  start : StartControls

inductive ScopeKind where
  | job
  | step
  deriving DecidableEq, Repr

def ScopeKind.asStr : ScopeKind → String
  | .job => "job"
  | .step => "step"

instance : Ord ScopeKind := ⟨compareOn fun scope => match scope with | .job => 0 | .step => 1⟩

instance : Std.TransOrd ScopeKind := transCmp_compareOn

instance : Std.LawfulEqOrd ScopeKind := lawfulEqCmp_compareOn (by
  intro left right same
  cases left <;> cases right <;> first | rfl | cases same)

/-- The orders of the maps over pairs, by names of their own. -/
instance transOrdScope : Std.TransOrd (ScopeKind × ScopedComponentId) := inferInstance

instance transOrdBranch : Std.TransOrd (NodeId × Nat) := inferInstance

inductive ScopeFrameworkSource where
  | jobInstanceId
  | jobExecutionId
  | stepExecutionId
  | attempt
  | definitionRevision
  | definitionFingerprint
  | logicalNodeId
  | stepName
  deriving DecidableEq, Repr

def ScopeFrameworkSource.asStr : ScopeFrameworkSource → String
  | .jobInstanceId => "job_instance_id"
  | .jobExecutionId => "job_execution_id"
  | .stepExecutionId => "step_execution_id"
  | .attempt => "attempt"
  | .definitionRevision => "definition_revision"
  | .definitionFingerprint => "definition_fingerprint"
  | .logicalNodeId => "logical_node_id"
  | .stepName => "step_name"

inductive LateBoundSource where
  | jobParameter (name : ParameterName)
  | jobContext (schema : StateSchemaId) (schemaVersion : StateSchemaVersion) (path : List String)
  | stepContext (node : NodeId) (schema : StateSchemaId) (schemaVersion : StateSchemaVersion)
      (path : List String)
  | framework (source : ScopeFrameworkSource)
  deriving DecidableEq

structure LateBoundInput where
  name : ParameterName
  source : LateBoundSource
  expected : ParameterValueKind
  coercion : ParameterCoercion
  missing : MissingParameterPolicy
  deriving DecidableEq

/-- A job- or step-scoped component; `new` sorts its inputs by their distinct names. -/
structure ScopedComponentDefinition where
  scope : ScopeKind
  id : ScopedComponentId
  factoryKind : Token 128
  factoryRevision : ComponentRevision
  resolverKind : Token 128
  resolverRevision : ComponentRevision
  inputs : List LateBoundInput
  deriving DecidableEq

structure ParameterIncrementerIdentity where
  kind : DefinitionRevision
  revision : DefinitionRevision
  deriving DecidableEq

end OxideBatch.Plan
