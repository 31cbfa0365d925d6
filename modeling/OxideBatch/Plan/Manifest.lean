import OxideBatch.Core.Json
import OxideBatch.Plan.Compile

/-! The canonical manifest: every node, transition, and scope of a compiled plan
projected into one JSON document. Members stand in key order. -/

namespace OxideBatch.Plan

open OxideBatch.Core
open Std (ExtTreeMap ExtTreeSet)

/-- Milliseconds of a duration, capped at `u64::MAX`. -/
def durationMillis (duration : Duration) : Nat := min (duration / 10 ^ 6) (2 ^ 64 - 1)

def text (value : Token maxBytes) : Json := .string value.value

def number (value : Nat) : Json := .integer value

def startControlsManifest (controls : StartControls) : Json :=
  let value := Json.object
    [("allow_start_if_complete", .bool controls.allowStartIfComplete),
     ("start_limit", number controls.startLimit.get)]
  if controls.restartPolicy = .notRestartable then
    value.withMember "restart_policy" (.string "not_restartable")
  else value

def flowTargetManifest : FlowTarget → Json
  | .node id => .object [("node", text id)]
  | .terminal kind => .object [("terminal", .string kind.asStr)]

/-- The chunk declaration of a flow; streams and completion policy are not part of it. -/
def chunkDeclarationManifest (revisions : ChunkComponentRevisions) : Json :=
  let value := Json.object
    [("checkpoint", .object
      [("schema", text revisions.restart.checkpointSchema),
       ("version", number revisions.restart.checkpointSchemaVersion.get)]),
     ("components", .object
      [("checkpoint", text revisions.checkpoint),
       ("processor", text revisions.processor),
       ("reader", text revisions.reader),
       ("writer", text revisions.writer)]),
     ("context", .object
      [("schema", text revisions.restart.contextSchema),
       ("version", number revisions.restart.contextSchemaVersion.get)]),
     ("delivery_mode", .string revisions.restart.deliveryMode.manifestName)]
  if revisions.restart.inFlightPolicy = .rollbackChunk then
    value.withMember "in_flight_policy" (.string "rollback_chunk")
  else value

def faultRuleManifest (rule : FaultRule) : Json :=
  .object
    [("category", .string rule.category.asStr),
     ("phase", .string rule.phase.asStr),
     ("retryable", .bool rule.action.retryable),
     ("skip", (rule.action.skip.map fun skip => Json.string skip.asStr).getD .null)]

def faultManifestValue (policy : FaultPolicy) : Json :=
  .object
    [("backoff", .object
      [("initial_ms", number (durationMillis policy.backoff.initial)),
       ("kind", .string policy.backoff.kind.asStr),
       ("maximum_ms", number (durationMillis policy.backoff.maximum)),
       ("multiplier", number policy.backoff.multiplier)]),
     ("classifier", .object
      [("revision", text policy.classifier.revision),
       ("rules", .array (policy.classifier.rules.map faultRuleManifest))]),
     ("retry_limit", number policy.retryLimit),
     ("retry_state_limit", number policy.retryStateLimit),
     ("skip_limit", number policy.skipLimit)]

def StepComponents.kindName : StepComponents → String
  | .tasklet _ => "tasklet"
  | .chunk _ _ => "chunk"

def StepComponents.manifestValue : StepComponents → Json
  | .tasklet revision =>
    .object
      [("component", text revision),
       ("delivery_mode", .string "best_effort"),
       ("transaction_boundary", .string "tasklet_completion")]
  | .chunk size revisions =>
    ((chunkDeclarationManifest revisions).withMember "size" (number size.get)).withMember
      "transaction_boundary" (.string "chunk")

def RepeatPolicyDefinition.manifestValue (policy : RepeatPolicyDefinition) : Json :=
  .object
    [("configuration", text policy.configuration),
     ("kind", text policy.kind),
     ("revision", text policy.revision)]

def RepeatInterceptorDefinition.manifestValue (interceptor : RepeatInterceptorDefinition) : Json :=
  .object
    [("id", text interceptor.id),
     ("kind", text interceptor.kind),
     ("revision", text interceptor.revision)]

def RepeatStateSchema.manifestValue (state : RepeatStateSchema) : Json :=
  .object [("schema", text state.schema), ("version", number state.version.get)]

def RepeatLevel.manifestValue (level : RepeatLevel) : Json :=
  .object
    [("id", text level.id),
     ("interceptors", .array
      (level.interceptors.map RepeatInterceptorDefinition.manifestValue)),
     ("policy", level.policy.manifestValue),
     ("state", level.state.manifestValue)]

/-- A wrapper and the chain nested in it. -/
def repeatManifest : RepeatLevel → List RepeatLevel → Json
  | level, [] => level.manifestValue
  | level, inner :: deeper => level.manifestValue.withMember "nested" (repeatManifest inner deeper)

def RepeatDefinition.manifestValue (definition : RepeatDefinition) : Json :=
  repeatManifest definition.outer definition.nested

def policyManifest (fault : Option FaultPolicy) : Json := (fault.map faultManifestValue).getD .null

def listenersManifest (listeners : List ComponentRevision) : Json := .array (listeners.map text)

def StepNode.manifestValue (step : StepNode) : Json :=
  let value := Json.object
    [("id", text step.id),
     ("kind", .string "step"),
     ("listeners", listenersManifest step.listeners),
     ("policy", policyManifest step.fault),
     ("start", startControlsManifest step.start),
     ("step", .object
      [("declaration", step.components.manifestValue),
       ("kind", .string step.components.kindName),
       ("name", text step.stepName)])]
  match step.repeatDefinition with
  | some definition => value.withMember "repeat" definition.manifestValue
  | none => value

def DecisionNode.manifestValue (node : DecisionNode) : Json :=
  .object
    [("decision", .object
      [("input_version", number node.inputVersion.get), ("revision", text node.revision)]),
     ("id", text node.id),
     ("kind", .string "decision")]

def pathManifest (path : List String) : Json := .array (path.map Json.string)

def NestedJobParameterSource.manifestValue : NestedJobParameterSource → Json
  | .parentParameter name =>
    .object [("kind", .string "parent_parameter"), ("name", text name)]
  | .parentJobContext schema schemaVersion path =>
    .object
      [("kind", .string "parent_job_context"),
       ("path", pathManifest path),
       ("schema", text schema),
       ("schema_version", number schemaVersion.get)]
  | .parentStepContext node schema schemaVersion path =>
    .object
      [("kind", .string "parent_step_context"),
       ("node", text node),
       ("path", pathManifest path),
       ("schema", text schema),
       ("schema_version", number schemaVersion.get)]
  | .framework source =>
    .object [("field", .string source.asStr), ("kind", .string "framework")]

def NestedJobParameterMapping.manifestValue (mapping : NestedJobParameterMapping) : Json :=
  .object
    [("coercion", .string mapping.coercion.asStr),
     ("expected", .string mapping.expected.asStr),
     ("missing", .string mapping.missing.asStr),
     ("role", .string mapping.role.asStr),
     ("source", mapping.source.manifestValue),
     ("target", text mapping.target)]

/-- The 64 hexadecimal digits of a digest. -/
def digestHex (digest : Digest) : String :=
  String.ofList ((List.range 64).map fun place =>
    Nat.digitChar (digest.val / 16 ^ (63 - place) % 16))

def NestedJobNode.manifestValue (node : NestedJobNode) : Json :=
  .object
    [("child", .object
      [("fingerprint", .string (digestHex node.childDefinition.manifestDigest)),
       ("format", number node.childDefinition.manifestFormat),
       ("job", .string ((node.childDefinition.jobName.map (·.value)).getD "")),
       ("revision", text node.childDefinition.revision)]),
     ("id", text node.id),
     ("kind", .string "nested_job"),
     ("mapping_revision", text node.mappingRevision),
     ("parameters", .array (node.mappings.map NestedJobParameterMapping.manifestValue))]

def CustomLeafNode.manifestValue (node : CustomLeafNode) : Json :=
  .object
    [("handler_revision", text node.handlerRevision),
     ("id", text node.id),
     ("kind", .string "custom_leaf"),
     ("leaf_kind", text node.kind),
     ("listeners", listenersManifest node.listeners),
     ("policy", policyManifest node.fault),
     ("start", startControlsManifest node.start),
     ("state_schema", .object
      [("id", text node.stateSchemaId), ("version", number node.stateSchemaVersion.get)]),
     ("step_name", text node.stepName)]

def SplitBranch.manifestValue (branch : SplitBranch FlowGraph) : Json :=
  .array (branch.steps.map StepNode.manifestValue)

/-- A split with its branches already projected. -/
def splitManifest (split : SplitNode FlowGraph) (branches : List Json) : Json :=
  .object
    [("branches", .array branches),
     ("failure_policy", .string split.failurePolicy.asStr),
     ("id", text split.id),
     ("join", text split.join),
     ("kind", .string "split")]

def JoinNode.manifestValue (node : JoinNode) : Json :=
  .object [("id", text node.id), ("kind", .string "join")]

def PartitionedStepNode.manifestValue (node : PartitionedStepNode) : Json :=
  .object
    [("aggregation", text node.aggregation),
     ("failure_policy", .string node.failurePolicy.asStr),
     ("id", text node.id),
     ("kind", .string "partitioned_step"),
     ("partition_count", number node.partitions),
     ("partitioner", text node.partitioner),
     ("start", startControlsManifest node.start),
     ("step_name", text node.stepName),
     ("worker", node.worker.manifestValue)]

def FlowNode.manifestValue : FlowNode FlowGraph → Json
  | .step node => node.manifestValue
  | .decision node => node.manifestValue
  | .nestedJob node => node.manifestValue
  | .customLeaf node => node.manifestValue
  | .split node => splitManifest node (node.branches.map SplitBranch.manifestValue)
  | .join node => node.manifestValue
  | .partitionedStep node => node.manifestValue

def FlowTransition.manifestValue (edge : FlowTransition) : Json :=
  .object
    [("pattern", .string edge.pattern.value),
     ("source", text edge.source),
     ("target", flowTargetManifest edge.target)]

def LateBoundSource.manifestValue : LateBoundSource → Json
  | .jobParameter name => .object [("kind", .string "job_parameter"), ("name", text name)]
  | .jobContext schema schemaVersion path =>
    .object
      [("kind", .string "job_context"),
       ("path", pathManifest path),
       ("schema", text schema),
       ("schema_version", number schemaVersion.get)]
  | .stepContext node schema schemaVersion path =>
    .object
      [("kind", .string "step_context"),
       ("node", text node),
       ("path", pathManifest path),
       ("schema", text schema),
       ("schema_version", number schemaVersion.get)]
  | .framework source => .object [("field", .string source.asStr), ("kind", .string "framework")]

def LateBoundInput.manifestValue (input : LateBoundInput) : Json :=
  .object
    [("coercion", .string input.coercion.asStr),
     ("expected", .string input.expected.asStr),
     ("missing", .string input.missing.asStr),
     ("name", text input.name),
     ("source", input.source.manifestValue)]

def ScopedComponentDefinition.manifestValue (component : ScopedComponentDefinition) : Json :=
  .object
    [("factory", .object
      [("kind", text component.factoryKind), ("revision", text component.factoryRevision)]),
     ("id", text component.id),
     ("inputs", .array (component.inputs.map LateBoundInput.manifestValue)),
     ("resolver", .object
      [("kind", text component.resolverKind), ("revision", text component.resolverRevision)]),
     ("scope", .string component.scope.asStr)]

def manifestFormatFlow : Nat := 2

def manifestFormatLocalScale : Nat := 3

def manifestFormatAdvancedFlow : Nat := 4

def transitionsManifest (transitions : Edges) : Json :=
  .array ((transitions.values.flatMap fun edges => edges).map FlowTransition.manifestValue)

/-- `flow_manifest`. -/
def flowManifest (jobName : JobName) (entry : NodeId) (nodes : NodeMap (FlowNode FlowGraph))
    (transitions : Edges) (localScale : Bool) : Json :=
  .object
    [("entry", text entry),
     ("format", number (if localScale then manifestFormatLocalScale else manifestFormatFlow)),
     ("job", text jobName),
     ("nodes", .array (nodes.values.map FlowNode.manifestValue)),
     ("transitions", transitionsManifest transitions)]

def membersManifest (scope : CompiledFlowScope) : Json := .array (scope.members.toList.map text)

def branchManifest (branchScopes : BranchScopes) (split : NodeId)
    (branch : SplitBranch FlowGraph × Nat) : Json :=
  match branchScopes[(split, branch.2)]? with
  | none =>
    .object
      [("kind", .string "linear"),
       ("ordinal", number (branch.2 + 1)),
       ("steps", .array (branch.1.steps.map StepNode.manifestValue))]
  | some scope =>
    .object
      [("entry", text scope.entry),
       ("kind", .string "flow"),
       ("members", membersManifest scope),
       ("ordinal", number (branch.2 + 1))]

def advancedNodeValue (branchScopes : BranchScopes) : FlowNode FlowGraph → Json
  | .split split =>
    splitManifest split (split.branches.zipIdx.map (branchManifest branchScopes split.id))
  | node => node.manifestValue

def advancedNodeManifest (branchScopes : BranchScopes) (node : FlowNode FlowGraph)
    (decisionSequence : Option Nat) : Json :=
  match decisionSequence with
  | some sequence =>
    (advancedNodeValue branchScopes node).withMember "decision_sequence" (number sequence)
  | none => advancedNodeValue branchScopes node

def nestedManifest (owner : NodeId) (record : NestedRecord) : Json :=
  .object
    [("entry", text record.scope.entry),
     ("exits", .array (record.exits.map FlowTransition.manifestValue)),
     ("id", text owner),
     ("kind", .string "nested_flow"),
     ("members", membersManifest record.scope)]

/-- `assign_decision_sequences`: the sources in order, counted from one. -/
def assignDecisionSequences (transitions : Edges) : List (NodeId × Nat) :=
  transitions.keys.zipIdx 1

def decisionSequence (sequences : List (NodeId × Nat)) (id : NodeId) : Option Nat :=
  (sequences.find? (·.1 = id)).map (·.2)

/-- The projected nodes; the owners of nested flows join the executable nodes. -/
def AdvancedCompiler.nodeValues (compiler : AdvancedCompiler) : NodeMap Json :=
  let sequences := assignDecisionSequences compiler.transitions
  compiler.nestedRecords.toList.foldl
    (fun values record => values.insert record.1 (nestedManifest record.1 record.2))
    (compiler.nodes.map fun id node =>
      advancedNodeManifest compiler.splitBranchScopes node (decisionSequence sequences id))

def incrementerManifest (identity : ParameterIncrementerIdentity) : Json :=
  .object [("kind", text identity.kind), ("revision", text identity.revision)]

/-- `AdvancedCompiler::manifest`. -/
def AdvancedCompiler.manifest (compiler : AdvancedCompiler) (jobName : JobName)
    (rootScope : CompiledFlowScope) (incrementer : Option ParameterIncrementerIdentity) : Json :=
  let manifest := Json.object
    [("entry", text rootScope.entry),
     ("format", number manifestFormatAdvancedFlow),
     ("job", text jobName),
     ("nodes", .array compiler.nodeValues.values),
     ("transitions", transitionsManifest compiler.transitions)]
  let manifest :=
    if compiler.jobRestartPolicy = .notRestartable then
      manifest.withMember "restart_policy" (.string "not_restartable")
    else manifest
  let manifest :=
    match incrementer with
    | some identity => manifest.withMember "parameter_incrementer" (incrementerManifest identity)
    | none => manifest
  if compiler.scopedComponents.isEmpty then manifest
  else manifest.withMember "scoped_components"
    (.array (compiler.scopedComponents.values.map ScopedComponentDefinition.manifestValue))

end OxideBatch.Plan
