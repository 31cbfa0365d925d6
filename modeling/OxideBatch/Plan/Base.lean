import OxideBatch.Plan.Manifest

/-! `FlowGraph::compile`: the base formats for plain and local-scale flows, the
advanced format for everything else, and the identity of the canonical manifest. -/

namespace OxideBatch.Plan

open OxideBatch.Core
open Std (ExtTreeMap ExtTreeSet)

/-- `serde_json` over documents and SHA-256 over bytes. -/
structure Serde where
  toVec : Json → Option (List UInt8)
  fromSlice : List UInt8 → Option Json
  sha256 : List UInt8 → Digest

/-- `MAX_MANIFEST_BYTES`. -/
def maxManifestBytes : Nat := 64 * 1024

/-- The declared format of a flow manifest. -/
def flowFormat (document : Json) : Option Nat :=
  ((document.asObject.bind (Json.member? "format")).bind Json.asU64).filter fun format =>
    format = manifestFormatFlow || format = manifestFormatLocalScale ||
      format = manifestFormatAdvancedFlow

/-- `DefinitionIdentity::from_flow_manifest`. -/
def fromFlowManifest (serde : Serde) (jobName : JobName) (revision : DefinitionRevision)
    (canonical : List UInt8) : Except DefinitionError DefinitionIdentity :=
  if maxManifestBytes < canonical.length then .error .manifestTooLarge
  else
    match serde.fromSlice canonical with
    | none => .error .manifestEncoding
    | some document =>
      if document.asObject = none ∨ serde.toVec document ≠ some canonical then
        .error .manifestEncoding
      else
        match flowFormat document with
        | none => .error .manifestEncoding
        | some format =>
          .ok ⟨some jobName, revision, format, serde.sha256 canonical, canonical⟩

/-- Encodes a manifest and binds its bytes to the job. -/
def identifyManifest (serde : Serde) (jobName : JobName) (revision : DefinitionRevision)
    (manifest : Json) : Except PlanError DefinitionIdentity :=
  match serde.toVec manifest with
  | none => .error (.manifest .manifestEncoding)
  | some canonical => (fromFlowManifest serde jobName revision canonical).mapError .manifest

/-- `advanced::compile` of a job. -/
def compileAdvancedUnder (check : EdgeCheck) (serde : Serde) (jobName : JobName)
    (revision : DefinitionRevision) (graph : FlowGraph) :
    Except PlanError (CompiledExecutionPlan DefinitionIdentity) :=
  compileUnder check (fun compiler rootScope incrementer =>
    identifyManifest serde jobName revision
      (compiler.manifest jobName rootScope incrementer)) graph

def compileAdvanced (serde : Serde) (jobName : JobName) (revision : DefinitionRevision)
    (graph : FlowGraph) : Except PlanError (CompiledExecutionPlan DefinitionIdentity) :=
  compileAdvancedUnder checkUnambiguous serde jobName revision graph

section Format

def StepNode.isNonrestartable (step : StepNode) : Bool := step.restartPolicy = .notRestartable

def FlowNode.hasNonrestartableStep : FlowNode FlowGraph → Bool
  | .step node => node.isNonrestartable
  | .customLeaf node => node.start.restartPolicy = .notRestartable
  | .partitionedStep node =>
    node.start.restartPolicy = .notRestartable || node.worker.isNonrestartable
  | .split node => (node.branches.flatMap (·.steps)).any (·.isNonrestartable)
  | _ => false

def FlowNode.hasRepeatDefinition : FlowNode FlowGraph → Bool
  | .step node => node.repeatDefinition.isSome
  | .partitionedStep node => node.worker.repeatDefinition.isSome
  | .split node => (node.branches.flatMap (·.steps)).any (·.repeatDefinition.isSome)
  | _ => false

/-- The node kinds that only the advanced format holds. -/
def FlowNode.isAdvanced : FlowNode FlowGraph → Bool
  | .nestedJob _ => true
  | .customLeaf _ => true
  | .split node => node.branches.any (·.flow.isSome)
  | _ => false

def FlowGraph.requiresAdvancedFormat (graph : FlowGraph) : Bool :=
  graph.jobRestartPolicy = .notRestartable || graph.parameterIncrementer.isSome ||
    !graph.scopedComponents.isEmpty || !graph.nestedFlows.isEmpty ||
    graph.nodes.any fun node =>
      node.hasNonrestartableStep || node.hasRepeatDefinition || node.isAdvanced

end Format

section LocalScale

/-- What `check_local_scale_subset` has seen so far. -/
structure LocalScale where
  embeddedIds : ExtTreeSet NodeId
  joinOwners : NodeMap NodeId
  localScale : Bool

/-- An embedded step takes an identifier that no node and no other step has. -/
def embedStep (nodes : NodeMap (FlowNode FlowGraph)) (embedded : ExtTreeSet NodeId) (id : NodeId) :
    Except PlanError (ExtTreeSet NodeId) :=
  if nodes.contains id || embedded.contains id then .error (.duplicateNodeId id)
  else .ok (embedded.insert id)

def checkBranch (nodes : NodeMap (FlowNode FlowGraph)) (split : NodeId)
    (embedded : ExtTreeSet NodeId) (branch : SplitBranch FlowGraph) :
    Except PlanError (ExtTreeSet NodeId) :=
  if branch.steps.length < 1 ∨ maxBranchSteps < branch.steps.length then
    .error (.invalidBranchLength split maxBranchSteps)
  else branch.steps.foldlM (fun embedded step => embedStep nodes embedded step.id) embedded

def checkSplit (entry : NodeId) (nodes : NodeMap (FlowNode FlowGraph)) (held : LocalScale)
    (id : NodeId) (split : SplitNode FlowGraph) : Except PlanError LocalScale :=
  if id = entry then .error (.splitIsEntry id)
  else if split.branches.length < 2 ∨ maxSplitBranches < split.branches.length then
    .error (.invalidSplitBranchCount id 2 maxSplitBranches)
  else if split.branches.length < split.maxParallelBranches then
    .error (.parallelBudgetExceedsBranches id split.branches.length)
  else if !(nodes[split.join]?.any (·.isJoin)) then .error (.invalidSplitJoin id split.join)
  else
    match held.joinOwners[split.join]? with
    | some first => .error (.joinHasMultipleOwners split.join first id)
    | none => do
      let embeddedIds ← split.branches.foldlM (checkBranch nodes id) held.embeddedIds
      pure ⟨embeddedIds, held.joinOwners.insert split.join id, true⟩

def checkLocalNode (entry : NodeId) (nodes : NodeMap (FlowNode FlowGraph)) (held : LocalScale)
    (declared : NodeId × FlowNode FlowGraph) : Except PlanError LocalScale :=
  match declared.2 with
  | .split split => checkSplit entry nodes held declared.1 split
  | .join _ => .ok { held with localScale := true }
  | .partitionedStep partitioned => do
    let embeddedIds ← embedStep nodes held.embeddedIds partitioned.worker.id
    pure { held with embeddedIds, localScale := true }
  | _ => .ok held

/-- `check_local_scale_subset`: whether the flow needs the local-scale format. -/
def checkLocalScaleSubset (entry : NodeId) (nodes : NodeMap (FlowNode FlowGraph)) :
    Except PlanError Bool := do
  let held ← nodes.toList.foldlM (checkLocalNode entry nodes) ⟨∅, ∅, false⟩
  if maxNodes < nodes.size + held.embeddedIds.size then .error (.tooManyNodes maxNodes)
  else
    match nodes.toList.find? fun declared =>
        declared.2.isJoin && !held.joinOwners.contains declared.1 with
    | some declared => .error (.orphanJoin declared.1)
    | none => .ok held.localScale

end LocalScale

section Edges

/-- Adds one declared transition to the edges of its source. -/
def connect (nodes : NodeMap (FlowNode FlowGraph)) (outgoing : Edges)
    (transition : FlowTransition) : Except PlanError Edges := do
  validateTransition transition nodes ∅
  pushTransition outgoing transition

/-- Every node but a split has edges that pass the check. -/
def checkOutgoingUnder (check : EdgeCheck) (outgoing : Edges)
    (declared : NodeId × FlowNode FlowGraph) : Except PlanError Unit :=
  if declared.2.splitJoin?.isSome then .ok ()
  else
    match outgoing[declared.1]?.getD [] with
    | [] => .error (.missingTransition declared.1)
    | edge :: edges => check declared.1 (edge :: edges)

def checkOutgoing (outgoing : Edges) (declared : NodeId × FlowNode FlowGraph) :
    Except PlanError Unit :=
  checkOutgoingUnder checkUnambiguous outgoing declared

/-- The nodes `visit` goes on to: a split's join, then the targets of the edges. -/
def expandFlow (nodes : NodeMap (FlowNode FlowGraph)) (transitions : Edges) (id : NodeId) :
    Except PlanError (List NodeId) :=
  .ok ((nodes[id]?.bind (·.splitJoin?)).toList ++
    (transitions[id]?.getD []).filterMap fun edge =>
      match edge.target with
      | .node target => some target
      | .terminal _ => none)

/-- `check_reachable_and_acyclic`. -/
def checkReachableAndAcyclic (entry : NodeId) (nodes : NodeMap (FlowNode FlowGraph))
    (transitions : Edges) : Except PlanError Unit := do
  let visited ← DepthFirst.visit (expandFlow nodes transitions) .cyclicGraph (nodes.size + 1)
    [] [] entry
  match nodes.keys.find? fun id => id ∉ visited with
  | some id => .error (.unreachableNode id)
  | none => .ok ()

end Edges

/-- A plan of the base formats: one scope with every node. -/
def basePlan (definition : Definition) (entry : NodeId) (nodes : NodeMap (FlowNode FlowGraph))
    (transitions : Edges) : CompiledExecutionPlan Definition :=
  { definition,
    jobRestartPolicy := .restartable,
    parameterIncrementer := none,
    scopedComponents := ∅,
    entry,
    rootScope := ⟨entry, ExtTreeSet.ofList nodes.keys⟩,
    nodes,
    transitions,
    splitBranchScopes := ∅,
    nestedScopes := ∅,
    decisionSequences := [] }

/-- The base path of `FlowGraph::compile`. -/
def compileBaseUnder (check : EdgeCheck) (serde : Serde) (jobName : JobName)
    (revision : DefinitionRevision) (graph : FlowGraph) :
    Except PlanError (CompiledExecutionPlan DefinitionIdentity) :=
  match graph.entry with
  | none => .error .missingEntryNode
  | some entry =>
    if maxNodes < graph.nodes.length then .error (.tooManyNodes maxNodes)
    else if maxTransitions < graph.transitions.length then
      .error (.tooManyTransitions maxTransitions)
    else do
      let nodes ← collectNodes graph.nodes
      if !nodes.contains entry then .error (.undefinedNode entry)
      else do
        let localScale ← checkLocalScaleSubset entry nodes
        let outgoing ← graph.transitions.foldlM (connect nodes) ∅
        nodes.toList.forM (checkOutgoingUnder check outgoing)
        let transitions := outgoing.map fun _ edges => sortTransitions edges
        checkReachableAndAcyclic entry nodes transitions
        let definition ← identifyManifest serde jobName revision
          (flowManifest jobName entry nodes transitions localScale)
        pure (basePlan definition entry nodes transitions)

def compileBase (serde : Serde) (jobName : JobName) (revision : DefinitionRevision)
    (graph : FlowGraph) : Except PlanError (CompiledExecutionPlan DefinitionIdentity) :=
  compileBaseUnder checkUnambiguous serde jobName revision graph

def FlowGraph.compileUnder (check : EdgeCheck) (serde : Serde) (graph : FlowGraph)
    (jobName : JobName) (revision : DefinitionRevision) :
    Except PlanError (CompiledExecutionPlan DefinitionIdentity) :=
  if graph.requiresAdvancedFormat then compileAdvancedUnder check serde jobName revision graph
  else compileBaseUnder check serde jobName revision graph

/-- `FlowGraph::compile`. -/
def FlowGraph.compile (serde : Serde) (graph : FlowGraph) (jobName : JobName)
    (revision : DefinitionRevision) :
    Except PlanError (CompiledExecutionPlan DefinitionIdentity) :=
  graph.compileUnder checkUnambiguous serde jobName revision

end OxideBatch.Plan
