import OxideBatch.Core.JsonWalk
import OxideBatch.Plan.Base

/-! `DefinitionUpgrade::transformed`: the nodes a definition declares, the durable-state
contracts it declares for them, and the upgrades it accepts between two definitions. All
of it is read back from the canonical manifests. -/

namespace OxideBatch.Plan

open OxideBatch.Core
open Json (member?)
open Std (ExtTreeMap ExtTreeSet)

/-- `MAX_DEFINITION_UPGRADE_NODES`. -/
def maxDefinitionUpgradeNodes : Nat := maxNodes

def maxDefinitionUpgradeTransforms : Nat := maxTransitions

def manifestFormatOneStep : Nat := 1

inductive DefinitionStateKind where
  | checkpoint
  | executionContext
  | componentState
  | scopeResolution
  | repeat
  | faultState
  deriving DecidableEq, Repr

abbrev DefinitionStateTransformId := Token 128

abbrev DefinitionUpgradeKey := Token 128

abbrev DefinitionUpgradeRevision := Token 128

structure DefinitionNodeUpgrade where
  source : NodeId
  target : NodeId
  deriving DecidableEq

structure DefinitionStateTransform where
  sourceNode : NodeId
  targetNode : NodeId
  kind : DefinitionStateKind
  stateId : DefinitionStateTransformId
  sourceSchema : StateSchemaId
  sourceVersion : StateSchemaVersion
  targetSchema : StateSchemaId
  targetVersion : StateSchemaVersion
  revision : DefinitionUpgradeRevision
  deriving DecidableEq

/-- A declared edge between two definitions: mapped steps, or mapped nodes with the
transforms of their states. -/
structure DefinitionUpgrade where
  key : DefinitionUpgradeKey
  revision : Option DefinitionUpgradeRevision
  source : DefinitionIdentity
  target : DefinitionIdentity
  stepMapping : ExtTreeMap StepName StepName
  nodeMapping : NodeMap NodeId
  transforms : List DefinitionStateTransform
  deriving DecidableEq

/-- The part of `DefinitionError` that an upgrade is refused with. -/
inductive UpgradeError where
  | invalidToken
  | manifestEncoding
  | upgradeSelfEdge
  | tooManyUpgradeNodes (max : Nat)
  | duplicateSourceNode
  | duplicateTargetNode
  | emptyStepMapping
  | unknownUpgradeSourceNode
  | missingUpgradeSourceNode
  | unknownUpgradeTargetNode
  | tooManyUpgradeTransforms (max : Nat)
  | stateTransformOutsideNodeMapping
  | duplicateStateTransform
  | missingTargetStateContract
  | missingRequiredStateTransform
  | stateTransformSchemaMismatch
  deriving DecidableEq, Repr

abbrev UpgradeResult := Except UpgradeError

/-- A member that is a string. -/
def memberStr (key : String) (members : List (String × Json)) : Option String :=
  (member? key members).bind Json.asStr

def orMalformed : Option α → UpgradeResult α
  | some value => .ok value
  | none => .error .manifestEncoding

/-- `NodeId::new` of a manifest text. -/
def readNodeId (value : String) : UpgradeResult NodeId :=
  match Token.new 128 value with
  | some id => .ok id
  | none => .error .invalidToken

section Nodes

def insertNodeId (members : List (String × Json)) (result : ExtTreeSet NodeId) :
    UpgradeResult (ExtTreeSet NodeId) :=
  match memberStr "id" members with
  | none => .ok result
  | some id => do
    let id ← readNodeId id
    pure (result.insert id)

mutual

/-- One node of `collect_upgrade_node_ids`. -/
def collectUpgradeNode : Json → ExtTreeSet NodeId → UpgradeResult (ExtTreeSet NodeId)
  | .object members, result => do
    let result ← insertNodeId members result
    let result ← collectUnder "members" members result
    let result ← collectUnder "steps" members result
    let result ← collectUnder "nodes" members result
    collectBranchesOf members result
  | _, _ => .error .manifestEncoding

def collectUpgradeNodeIds : List Json → ExtTreeSet NodeId → UpgradeResult (ExtTreeSet NodeId)
  | [], result => .ok result
  | node :: nodes, result => do
    let result ← collectUpgradeNode node result
    collectUpgradeNodeIds nodes result

/-- The children under one key, when it holds an array. -/
def collectUnder (key : String) : List (String × Json) → ExtTreeSet NodeId →
    UpgradeResult (ExtTreeSet NodeId)
  | [], result => .ok result
  | (name, value) :: members, result =>
    if name = key then
      match value with
      | .array children => collectUpgradeNodeIds children result
      | _ => .ok result
    else collectUnder key members result

def collectBranchesOf : List (String × Json) → ExtTreeSet NodeId →
    UpgradeResult (ExtTreeSet NodeId)
  | [], result => .ok result
  | (name, value) :: members, result =>
    if name = "branches" then
      match value with
      | .array branches => collectBranches branches result
      | _ => .ok result
    else collectBranchesOf members result

def collectBranches : List Json → ExtTreeSet NodeId → UpgradeResult (ExtTreeSet NodeId)
  | [], result => .ok result
  | .object members :: branches, result => do
    let result ← collectUnder "members" members result
    let result ← collectUnder "steps" members result
    let result ← collectUnder "nodes" members result
    collectBranches branches result
  | _ :: _, _ => .error .manifestEncoding

end

variable (serde : Serde)

/-- The parsed manifest of a definition. -/
def manifestDocument (definition : DefinitionIdentity) : UpgradeResult Json :=
  orMalformed (serde.fromSlice definition.canonicalManifest)

/-- `definition_upgrade_source_nodes`. -/
def definitionUpgradeSourceNodes (definition : DefinitionIdentity) :
    UpgradeResult (ExtTreeSet NodeId) := do
  let document ← manifestDocument serde definition
  let members ← orMalformed document.asObject
  if definition.manifestFormat = manifestFormatOneStep then
    let step ← orMalformed (memberStr "step" members)
    let id ← readNodeId step
    pure (ExtTreeSet.ofList [id])
  else
    let nodes ← orMalformed ((member? "nodes" members).bind Json.asArray)
    collectUpgradeNodeIds nodes ∅

end Nodes

section Contracts

/-- `DefinitionDurableStateContract`. -/
structure DefinitionDurableStateContract where
  kind : DefinitionStateKind
  stateId : Option String
  schema : StateSchemaId
  version : StateSchemaVersion
  deriving DecidableEq

/-- `StateSchemaVersion::new` of a manifest number. -/
def readVersion (value : Nat) : Option StateSchemaVersion :=
  if positive : 0 < value then
    if within : value < 2 ^ 32 then some ⟨value, positive, within⟩ else none
  else none

/-- `schema_contract`. -/
def schemaContract (kind : DefinitionStateKind) (stateId : Option String) (value : Json)
    (schemaKey : String) : UpgradeResult DefinitionDurableStateContract := do
  let members ← orMalformed value.asObject
  let schema ← orMalformed (memberStr schemaKey members)
  let version ← orMalformed (((member? "version" members).bind Json.asU64).bind readVersion)
  let schema ← orMalformed (Token.new 128 schema)
  pure ⟨kind, stateId, schema, version⟩

/-- The checkpoint and context contracts of a chunk. -/
def chunkContracts (members : List (String × Json)) :
    UpgradeResult (List DefinitionDurableStateContract) := do
  let checkpoint ← orMalformed (member? "checkpoint" members)
  let checkpoint ← schemaContract .checkpoint none checkpoint "schema"
  let context ← orMalformed (member? "context" members)
  let context ← schemaContract .executionContext none context "schema"
  pure [checkpoint, context]

def oneStepDurableStateContracts (members : List (String × Json)) :
    UpgradeResult (List DefinitionDurableStateContract) :=
  if memberStr "kind" members = some "chunk" then chunkContracts members else .ok []

mutual

/-- `collect_repeat_state_contracts`, outermost wrapper first. -/
def collectRepeatStateContracts : Json → UpgradeResult (List DefinitionDurableStateContract)
  | .object members => do
    let id ← orMalformed (memberStr "id" members)
    let state ← orMalformed (member? "state" members)
    let contract ← schemaContract .repeat (some id) state "schema"
    let nested ← collectNestedRepeat members
    pure (contract :: nested)
  | _ => .error .manifestEncoding

def collectNestedRepeat : List (String × Json) →
    UpgradeResult (List DefinitionDurableStateContract)
  | [] => .ok []
  | (name, value) :: members =>
    if name = "nested" then collectRepeatStateContracts value else collectNestedRepeat members

end

def stepContracts (members : List (String × Json)) :
    UpgradeResult (List DefinitionDurableStateContract) := do
  let step ← orMalformed ((member? "step" members).bind Json.asObject)
  if memberStr "kind" step = some "chunk" then
    let declaration ← orMalformed ((member? "declaration" step).bind Json.asObject)
    chunkContracts declaration
  else pure []

/-- `graph_node_durable_state_contracts`. -/
def graphNodeDurableStateContracts (members : List (String × Json)) :
    UpgradeResult (List DefinitionDurableStateContract) :=
  match memberStr "kind" members with
  | some "step" => do
    let contracts ← stepContracts members
    match member? "repeat" members with
    | some wrapper => do
      let repeats ← collectRepeatStateContracts wrapper
      pure (contracts ++ repeats)
    | none => pure contracts
  | some "custom_leaf" => do
    let state ← orMalformed (member? "state_schema" members)
    let contract ← schemaContract .executionContext none state "id"
    pure [contract]
  | _ => .ok []

/-- The kinds `find_definition_node` takes for graph nodes. -/
def nodeKinds : List String :=
  ["step", "custom_leaf", "decision", "join", "split", "nested_flow", "nested_job",
    "partitioned_step"]

/-- Whether an object looks like the node with an identifier. -/
def isDefinitionNode (id : NodeId) (members : List (String × Json)) : Bool :=
  (memberStr "kind" members).any (nodeKinds.contains ·) && memberStr "id" members = some id.value

mutual

/-- `find_definition_node`: the first object, depth first, that looks like the node. -/
def findDefinitionNode (id : NodeId) : Json → Option (List (String × Json))
  | .object members =>
    if isDefinitionNode id members then some members else findInMembers id members
  | .array values => findInValues id values
  | _ => none

def findInMembers (id : NodeId) : List (String × Json) → Option (List (String × Json))
  | [] => none
  | (_, value) :: members =>
    match findDefinitionNode id value with
    | some found => some found
    | none => findInMembers id members

def findInValues (id : NodeId) : List Json → Option (List (String × Json))
  | [] => none
  | value :: values =>
    match findDefinitionNode id value with
    | some found => some found
    | none => findInValues id values

end

variable (serde : Serde)

/-- `definition_durable_state_contracts`. -/
def definitionDurableStateContracts (definition : DefinitionIdentity) (id : NodeId) :
    UpgradeResult (List DefinitionDurableStateContract) := do
  let document ← manifestDocument serde definition
  if definition.manifestFormat = manifestFormatOneStep then
    let members ← orMalformed document.asObject
    let step ← orMalformed (memberStr "step" members)
    if step ≠ id.value then .error .unknownUpgradeSourceNode
    else oneStepDurableStateContracts members
  else
    let node ← orMalformed (findDefinitionNode id document)
    graphNodeDurableStateContracts node

end Contracts

section Upgrade

/-- Whether a transform is meant for a contract of a mapped node. -/
def DefinitionStateTransform.appliesTo (transform : DefinitionStateTransform)
    (sourceNode targetNode : NodeId) (source : DefinitionDurableStateContract) : Bool :=
  transform.sourceNode = sourceNode && transform.targetNode = targetNode &&
    transform.kind = source.kind &&
      (source.stateId.isNone || source.stateId = some transform.stateId.value)

/-- The check of one source contract. -/
def validateContract (transforms : List DefinitionStateTransform) (sourceNode targetNode : NodeId)
    (targets : List DefinitionDurableStateContract) (source : DefinitionDurableStateContract) :
    UpgradeResult Unit :=
  match targets.find? fun target => target.kind = source.kind ∧ target.stateId = source.stateId with
  | none => .error .missingTargetStateContract
  | some target =>
    match transforms.filter (·.appliesTo sourceNode targetNode source) with
    | [] =>
      if source.schema ≠ target.schema ∨ source.version ≠ target.version then
        .error .missingRequiredStateTransform
      else .ok ()
    | [transform] =>
      if transform.sourceSchema ≠ source.schema ∨ transform.sourceVersion ≠ source.version ∨
          transform.targetSchema ≠ target.schema ∨ transform.targetVersion ≠ target.version then
        .error .stateTransformSchemaMismatch
      else .ok ()
    | _ :: _ :: _ => .error .duplicateStateTransform

variable (serde : Serde)

def validateNode (source target : DefinitionIdentity)
    (transforms : List DefinitionStateTransform) (node : NodeId × NodeId) : UpgradeResult Unit := do
  let sources ← definitionDurableStateContracts serde source node.1
  let targets ← definitionDurableStateContracts serde target node.2
  sources.forM (validateContract transforms node.1 node.2 targets)

/-- `validate_required_definition_state_transforms`. -/
def validateRequiredDefinitionStateTransforms (source target : DefinitionIdentity)
    (nodeMapping : NodeMap NodeId) (transforms : List DefinitionStateTransform) :
    UpgradeResult Unit :=
  nodeMapping.toList.forM (validateNode serde source target transforms)

/-- Adds one node of the mapping; both ends are new. -/
def mapNode (held : NodeMap NodeId × ExtTreeSet NodeId) (node : DefinitionNodeUpgrade) :
    UpgradeResult (NodeMap NodeId × ExtTreeSet NodeId) :=
  if maxDefinitionUpgradeNodes ≤ held.1.size then
    .error (.tooManyUpgradeNodes maxDefinitionUpgradeNodes)
  else if held.1.contains node.source then .error .duplicateSourceNode
  else if held.2.contains node.target then .error .duplicateTargetNode
  else .ok (held.1.insert node.source node.target, held.2.insert node.target)

/-- The keys of the transforms seen so far. -/
abbrev TransformKey := NodeId × DefinitionStateKind × DefinitionStateTransformId

def checkTransform (nodeMapping : NodeMap NodeId) (seen : List TransformKey)
    (transform : DefinitionStateTransform) : UpgradeResult (List TransformKey) :=
  if nodeMapping[transform.sourceNode]? ≠ some transform.targetNode then
    .error .stateTransformOutsideNodeMapping
  else if (transform.sourceNode, transform.kind, transform.stateId) ∈ seen then
    .error .duplicateStateTransform
  else .ok ((transform.sourceNode, transform.kind, transform.stateId) :: seen)

/-- Every source node is mapped, and nothing else is. -/
def checkSourceNodes (nodeMapping : NodeMap NodeId) (sourceNodes : ExtTreeSet NodeId) :
    UpgradeResult Unit :=
  if nodeMapping.keys.any fun node => !sourceNodes.contains node then
    .error .unknownUpgradeSourceNode
  else if sourceNodes.toList.any fun node => !nodeMapping.contains node then
    .error .missingUpgradeSourceNode
  else .ok ()

def checkTargetNodes (nodeMapping : NodeMap NodeId) (targetNodes : ExtTreeSet NodeId) :
    UpgradeResult Unit :=
  if nodeMapping.values.any fun node => !targetNodes.contains node then
    .error .unknownUpgradeTargetNode
  else .ok ()

/-- `DefinitionUpgrade::transformed`. -/
def DefinitionUpgrade.transformed (key : DefinitionUpgradeKey)
    (revision : DefinitionUpgradeRevision) (source target : DefinitionIdentity)
    (nodes : List DefinitionNodeUpgrade) (transforms : List DefinitionStateTransform) :
    UpgradeResult DefinitionUpgrade :=
  if source.manifestDigest = target.manifestDigest then .error .upgradeSelfEdge
  else do
    let (nodeMapping, _) ← nodes.foldlM mapNode (∅, ∅)
    if nodeMapping.isEmpty then .error .emptyStepMapping
    else do
      let sourceNodes ← definitionUpgradeSourceNodes serde source
      checkSourceNodes nodeMapping sourceNodes
      let targetNodes ← definitionUpgradeSourceNodes serde target
      checkTargetNodes nodeMapping targetNodes
      if maxDefinitionUpgradeTransforms < transforms.length then
        .error (.tooManyUpgradeTransforms maxDefinitionUpgradeTransforms)
      else do
        let _ ← transforms.foldlM (checkTransform nodeMapping) []
        validateRequiredDefinitionStateTransforms serde source target nodeMapping transforms
        pure ⟨key, some revision, source, target, ∅, nodeMapping, transforms⟩

end Upgrade

end OxideBatch.Plan
