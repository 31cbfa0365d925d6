import OxideBatch.Plan.Graph
import OxideBatch.Core.Counts
import OxideBatch.Lib.DepthFirst
import OxideBatch.Lib.Walk

/-! `AdvancedCompiler`: nested flows are compiled before their owner's transitions
and spliced into one plan by rewriting their terminal edges. -/

namespace OxideBatch.Plan

open OxideBatch.Core
open Std (ExtTreeMap ExtTreeSet)

/-- A validated execution scope: its first executable node and its members. -/
structure CompiledFlowScope where
  entry : NodeId
  members : ExtTreeSet NodeId

structure NestedRecord where
  scope : CompiledFlowScope
  exits : List FlowTransition

abbrev NodeMap (Value : Type) := ExtTreeMap NodeId Value

abbrev Edges := NodeMap (List FlowTransition)

abbrev ScopedComponents := ExtTreeMap (ScopeKind × ScopedComponentId) ScopedComponentDefinition

/-- The scopes of flow branches by split and branch ordinal. -/
abbrev BranchScopes := ExtTreeMap (NodeId × Nat) CompiledFlowScope

structure AdvancedCompiler where
  nodes : NodeMap (FlowNode FlowGraph)
  transitions : Edges
  splitBranchScopes : BranchScopes
  nestedRecords : NodeMap NestedRecord
  allIds : ExtTreeSet NodeId
  structuralBranches : Nat
  declaredTransitions : Nat
  scopedComponents : ScopedComponents
  repeatIds : ExtTreeSet RepeatId
  jobRestartPolicy : RestartPolicy

def AdvancedCompiler.default : AdvancedCompiler :=
  ⟨∅, ∅, ∅, ∅, ∅, 0, 0, ∅, ∅, .restartable⟩

abbrev CompilerM := StateT AdvancedCompiler (Except PlanError)

def installScopedComponent (component : ScopedComponentDefinition) : CompilerM Unit := do
  let installed := (← get).scopedComponents
  if installed.contains (component.scope, component.id) then
    throw (.duplicateScopedComponent component.scope component.id)
  else if installed.keys.countP (·.1 = component.scope) = maxScopedComponents then
    throw (.tooManyScopedComponents maxScopedComponents)
  else modify fun compiler =>
    { compiler with
      scopedComponents :=
        compiler.scopedComponents.insert (component.scope, component.id) component }

def registerStepRepeat (step : StepNode) : CompilerM Unit :=
  step.repeatIds.forM fun id => do
    if (← get).repeatIds.contains id then throw (.duplicateRepeatId id)
    else modify fun compiler => { compiler with repeatIds := compiler.repeatIds.insert id }

def registerNodeRepeats (node : FlowNode FlowGraph) : CompilerM Unit :=
  match node with
  | .step step => registerStepRepeat step
  | .partitionedStep partitioned => registerStepRepeat partitioned.worker
  | .split split => (split.branches.flatMap (·.steps)).forM registerStepRepeat
  | _ => pure ()

def checkMaterializedNodes : CompilerM Unit := do
  let compiler ← get
  if maxNodes < compiler.allIds.size + compiler.structuralBranches then
    throw (.tooManyNodes maxNodes)
  else pure ()

def reserveId (id : NodeId) : CompilerM Unit := do
  if (← get).allIds.contains id then throw (.duplicateNodeId id)
  else do
    modify fun compiler => { compiler with allIds := compiler.allIds.insert id }
    checkMaterializedNodes

/-- Inserts entries in order, under identifiers that are neither taken nor held. -/
def insertFresh (taken : NodeId → Bool) (held : NodeMap Value) (entries : List (NodeId × Value)) :
    Except PlanError (NodeMap Value) :=
  entries.foldlM (fun held entry =>
    if taken entry.1 || held.contains entry.1 then .error (.duplicateNodeId entry.1)
    else .ok (held.insert entry.1 entry.2)) held

/-- The declared nodes by identifier. -/
def collectNodes (nodes : List (FlowNode FlowGraph)) :
    Except PlanError (NodeMap (FlowNode FlowGraph)) :=
  insertFresh (fun _ => false) ∅ (nodes.map fun node => (node.id, node))

/-- The nested flows by owner; no owner is a declared node. -/
def collectNested (localNodes : NodeMap (FlowNode FlowGraph)) (flows : List (NestedFlow FlowGraph)) :
    Except PlanError (NodeMap FlowGraph) :=
  insertFresh localNodes.contains ∅ (flows.map fun flow => (flow.id, flow.graph))

structure PreparedScope where
  declaredEntry : NodeId
  localNodes : NodeMap (FlowNode FlowGraph)
  nested : NodeMap FlowGraph
  transitions : List FlowTransition

def countTransitions (declared : Nat) : CompilerM Unit := do
  match checkedAdd (← get).declaredTransitions declared with
  | none => throw (.tooManyTransitions maxTransitions)
  | some total =>
    modify fun compiler => { compiler with declaredTransitions := total }
    if maxTransitions < total then throw (.tooManyTransitions maxTransitions) else pure ()

/-- A nested declaration only ever narrows the job's restart policy. -/
def narrowRestartPolicy (policy : RestartPolicy) : CompilerM Unit :=
  if policy = .notRestartable then
    modify fun compiler => { compiler with jobRestartPolicy := .notRestartable }
  else pure ()

/-- `prepare_scope` behind its depth check. -/
def prepareScope (graph : FlowGraph) : CompilerM PreparedScope := do
  narrowRestartPolicy graph.jobRestartPolicy
  graph.scopedComponents.forM installScopedComponent
  countTransitions graph.transitions.length
  match graph.entry with
  | none => throw .missingEntryNode
  | some declaredEntry => do
    let localNodes ← collectNodes graph.nodes
    localNodes.values.forM registerNodeRepeats
    let nested ← collectNested localNodes graph.nestedFlows
    if !localNodes.contains declaredEntry && !nested.contains declaredEntry then
      throw (.undefinedNode declaredEntry)
    else do
      (localNodes.keys ++ nested.keys).forM reserveId
      pure ⟨declaredEntry, localNodes, nested, graph.transitions⟩

section Scopes

-- `compile` stands for the recursive call one level deeper
variable (compile : FlowGraph → CompilerM CompiledFlowScope)

def compileNestedScope (scopes : NodeMap CompiledFlowScope) (flow : NodeId × FlowGraph) :
    CompilerM (NodeMap CompiledFlowScope) := do
  let scope ← compile flow.2
  pure (scopes.insert flow.1 scope)

def compileNestedScopes (nested : NodeMap FlowGraph) : CompilerM (NodeMap CompiledFlowScope) :=
  nested.toList.foldlM (compileNestedScope compile) ∅

def materializeBranch (id : NodeId) (ordinal : Nat) (branch : SplitBranch FlowGraph) :
    CompilerM Unit := do
  modify fun compiler => { compiler with structuralBranches := compiler.structuralBranches + 1 }
  checkMaterializedNodes
  match branch.flow with
  | some flow => do
    let scope ← compile flow
    modify fun compiler =>
      { compiler with
        splitBranchScopes := compiler.splitBranchScopes.insert (id, ordinal) scope }
  | none =>
    if branch.steps.length < 1 ∨ maxBranchSteps < branch.steps.length then
      throw (.invalidBranchLength id maxBranchSteps)
    else branch.steps.forM fun step => reserveId step.id

/-- `materialize_split`: the join owners with this split's join. -/
def materializeSplit (declaredEntry id : NodeId) (split : SplitNode FlowGraph)
    (localNodes : NodeMap (FlowNode FlowGraph)) (joinOwners : NodeMap NodeId) :
    CompilerM (NodeMap NodeId) := do
  if id = declaredEntry then throw (.splitIsEntry id)
  else if split.branches.length < 2 ∨ maxSplitBranches < split.branches.length then
    throw (.invalidSplitBranchCount id 2 maxSplitBranches)
  else if split.branches.length < split.maxParallelBranches then
    throw (.parallelBudgetExceedsBranches id split.branches.length)
  else if !(localNodes[split.join]?.any (·.isJoin)) then throw (.invalidSplitJoin id split.join)
  else
    match joinOwners[split.join]? with
    | some first => throw (.joinHasMultipleOwners split.join first id)
    | none => do
      split.branches.zipIdx.forM fun branch => materializeBranch compile id branch.2 branch.1
      pure (joinOwners.insert split.join id)

def materializeNode (declaredEntry : NodeId) (localNodes : NodeMap (FlowNode FlowGraph))
    (joinOwners : NodeMap NodeId) (entry : NodeId × FlowNode FlowGraph) :
    CompilerM (NodeMap NodeId) :=
  match entry.2 with
  | .split split => materializeSplit compile declaredEntry entry.1 split localNodes joinOwners
  | .partitionedStep partitioned => do
    reserveId partitioned.worker.id
    pure joinOwners
  | _ => pure joinOwners

def materializeLocalStructure (declaredEntry : NodeId)
    (localNodes : NodeMap (FlowNode FlowGraph)) : CompilerM Unit := do
  let joinOwners ← localNodes.toList.foldlM (materializeNode compile declaredEntry localNodes) ∅
  match localNodes.toList.find? fun entry => entry.2.isJoin && !joinOwners.contains entry.1 with
  | some entry => throw (.orphanJoin entry.1)
  | none => pure ()

end Scopes

def validateTransition (transition : FlowTransition) (localNodes : NodeMap (FlowNode FlowGraph))
    (nestedScopes : NodeMap CompiledFlowScope) : Except PlanError Unit :=
  let declared := fun id => localNodes.contains id || nestedScopes.contains id
  if !declared transition.source then .error (.undefinedNode transition.source)
  else
    match transition.target with
    | .node target =>
      if !declared target then .error (.undefinedNode target)
      else if localNodes[target]?.any (·.isJoin) then .error (.joinHasExternalEntry target)
      else if (localNodes[transition.source]?.bind (·.splitJoin?)).isSome then
        .error (.splitHasExplicitTransition transition.source)
      else .ok ()
    | .terminal _ =>
      if (localNodes[transition.source]?.bind (·.splitJoin?)).isSome then
        .error (.splitHasExplicitTransition transition.source)
      else .ok ()

/-- Appends a transition to the edges of its source. -/
def pushTransition (edges : Edges) (transition : FlowTransition) : Except PlanError Edges :=
  let held := edges[transition.source]?.getD []
  if held.length = maxOutgoingTransitions then
    .error (.tooManyOutgoingTransitions transition.source maxOutgoingTransitions)
  else .ok (edges.insert transition.source (held ++ [transition]))

/-- Adds one transition to the edges of executable nodes or to those of nested owners. -/
def partitionTransition (localNodes : NodeMap (FlowNode FlowGraph))
    (nestedScopes : NodeMap CompiledFlowScope) (partitions : Edges × Edges)
    (transition : FlowTransition) : Except PlanError (Edges × Edges) := do
  validateTransition transition localNodes nestedScopes
  if nestedScopes.contains transition.source then
    let nestedExits ← pushTransition partitions.2 transition
    pure (partitions.1, nestedExits)
  else
    let outgoing ← pushTransition partitions.1 transition
    pure (outgoing, partitions.2)

def partitionTransitions (transitions : List FlowTransition)
    (localNodes : NodeMap (FlowNode FlowGraph)) (nestedScopes : NodeMap CompiledFlowScope) :
    Except PlanError (Edges × Edges) :=
  transitions.foldlM (partitionTransition localNodes nestedScopes) (∅, ∅)

/-- A check of the edges of one node. The compiler is written over it, so that it can
be compared with itself without the check. -/
abbrev EdgeCheck := NodeId → List FlowTransition → Except PlanError Unit

def validateNestedExitsUnder (check : EdgeCheck) (nestedScopes : NodeMap CompiledFlowScope)
    (nestedExits : Edges) : Except PlanError Edges :=
  nestedScopes.keys.foldlM (fun nestedExits owner =>
    match nestedExits[owner]?.getD [] with
    | [] => .error (.missingTransition owner)
    | edge :: edges => do
      check owner (edge :: edges)
      pure (nestedExits.insert owner (sortTransitions (edge :: edges)))) nestedExits

def validateNestedExits (nestedScopes : NodeMap CompiledFlowScope) (nestedExits : Edges) :
    Except PlanError Edges :=
  validateNestedExitsUnder checkUnambiguous nestedScopes nestedExits

def resolveNestedTarget (nestedScopes : NodeMap CompiledFlowScope) : FlowTarget → FlowTarget
  | .node id => .node ((nestedScopes[id]?.map (·.entry)).getD id)
  | .terminal kind => .terminal kind

def resolveEdge (nestedScopes : NodeMap CompiledFlowScope) (edge : FlowTransition) :
    FlowTransition :=
  { edge with target := resolveNestedTarget nestedScopes edge.target }

/-- A terminal edge of a nested member goes where its owner's exit goes. -/
def rewriteEdge (owner : NodeId) (exits : List FlowTransition) (edge : FlowTransition) :
    Except PlanError FlowTransition :=
  match edge.target with
  | .node _ => .ok edge
  | .terminal kind =>
    match exits.find? fun exit => ExitPattern.matches exit.pattern (normalizedTerminalCode kind) with
    | some selected => .ok { edge with target := selected.target }
    | none => .error (.unmappedNestedFlowExit owner (normalizedTerminalCode kind))

def rewriteNestedTerminals (owner : NodeId) (scope : CompiledFlowScope)
    (exits : List FlowTransition) (transitions : Edges) : Except PlanError Edges :=
  scope.members.toList.foldlM (fun transitions source =>
    match transitions[source]? with
    | none => .ok transitions
    | some edges => do
      let rewritten ← edges.mapM (rewriteEdge owner exits)
      pure (transitions.insert source rewritten)) transitions

def normalizeNestedBoundary (nestedScopes : NodeMap CompiledFlowScope) (nestedExits : Edges)
    (owner : NodeId) (scope : CompiledFlowScope) : CompilerM Unit := do
  match nestedExits[owner]? with
  | none => throw (.missingTransition owner)
  | some exits => do
    let normalized := exits.map (resolveEdge nestedScopes)
    let transitions ← rewriteNestedTerminals owner scope normalized (← get).transitions
    modify fun compiler =>
      { compiler with
        transitions,
        nestedRecords := compiler.nestedRecords.insert owner ⟨scope, normalized⟩ }

/-- `normalize_nested_boundaries`: the outgoing edges with resolved targets. -/
def normalizeNestedBoundaries (nestedScopes : NodeMap CompiledFlowScope) (nestedExits : Edges)
    (outgoing : Edges) : CompilerM Edges := do
  nestedScopes.toList.forM fun entry =>
    normalizeNestedBoundary nestedScopes nestedExits entry.1 entry.2
  pure (outgoing.map fun _ edges => edges.map (resolveEdge nestedScopes))

def installLocalNodes (localNodes : NodeMap (FlowNode FlowGraph)) : CompilerM Unit := do
  let nodes ← insertFresh (fun _ => false) (← get).nodes localNodes.toList
  modify fun compiler => { compiler with nodes }

def installTransitions (outgoing : Edges) : CompilerM Unit := do
  let transitions ← insertFresh (fun _ => false) (← get).transitions
    (outgoing.toList.map fun entry => (entry.1, sortTransitions entry.2))
  modify fun compiler => { compiler with transitions }

/-- The check of one member of a scope. -/
def validateMemberUnder (check : EdgeCheck) (compiler : AdvancedCompiler)
    (members : ExtTreeSet NodeId) (id : NodeId) : Except PlanError Unit :=
  match compiler.nodes[id]? with
  | none => .error (.undefinedNode id)
  | some node =>
    if node.splitJoin?.isSome then .ok ()
    else
      match compiler.transitions[id]?.getD [] with
      | [] => .error (.missingTransition id)
      | edge :: edges => do
        check id (edge :: edges)
        match (edge :: edges).findSome? fun edge =>
            match edge.target with
            | .node target => if members.contains target then none else some target
            | .terminal _ => none with
        | some target => .error (.undefinedNode target)
        | none => .ok ()

def validateMember (compiler : AdvancedCompiler) (members : ExtTreeSet NodeId) (id : NodeId) :
    Except PlanError Unit :=
  validateMemberUnder checkUnambiguous compiler members id

/-- The nodes `visit_scope` goes on to: a split's join, then the targets of the edges. -/
def expandScope (compiler : AdvancedCompiler) (members : ExtTreeSet NodeId) (id : NodeId) :
    Except PlanError (List NodeId) :=
  let targets := (compiler.transitions[id]?.getD []).filterMap fun edge =>
    match edge.target with
    | .node target => some target
    | .terminal _ => none
  match compiler.nodes[id]?.bind (·.splitJoin?) with
  | some join =>
    if members.contains join then .ok (join :: targets) else .error (.invalidSplitJoin id join)
  | none => .ok targets

def validateScopeUnder (check : EdgeCheck) (compiler : AdvancedCompiler) (entry : NodeId)
    (members : ExtTreeSet NodeId) : Except PlanError Unit := do
  if !members.contains entry then throw (.undefinedNode entry)
  else do
    members.toList.forM (validateMemberUnder check compiler members)
    let visited ← DepthFirst.visit (expandScope compiler members) .cyclicGraph (members.size + 1)
      [] [] entry
    match members.toList.find? fun id => id ∉ visited with
    | some id => throw (.unreachableNode id)
    | none => pure ()

def validateScope (compiler : AdvancedCompiler) (entry : NodeId) (members : ExtTreeSet NodeId) :
    Except PlanError Unit :=
  validateScopeUnder checkUnambiguous compiler entry members

/-- `compile_scope` behind its depth check. -/
def compileScopeWithUnder (check : EdgeCheck) (compile : FlowGraph → CompilerM CompiledFlowScope)
    (graph : FlowGraph) : CompilerM CompiledFlowScope := do
  let prepared ← prepareScope graph
  let nestedScopes ← compileNestedScopes compile prepared.nested
  materializeLocalStructure compile prepared.declaredEntry prepared.localNodes
  let partitions ← partitionTransitions prepared.transitions prepared.localNodes nestedScopes
  let nestedExits ← validateNestedExitsUnder check nestedScopes partitions.2
  let outgoing ← normalizeNestedBoundaries nestedScopes nestedExits partitions.1
  let members := nestedScopes.toList.foldl (fun members entry => members ∪ entry.2.members)
    (ExtTreeSet.ofList prepared.localNodes.keys)
  let entry := (nestedScopes[prepared.declaredEntry]?.map (·.entry)).getD prepared.declaredEntry
  installLocalNodes prepared.localNodes
  installTransitions outgoing
  let compiler ← get
  validateScopeUnder check compiler entry members
  pure ⟨entry, members⟩

def compileScopeWith (compile : FlowGraph → CompilerM CompiledFlowScope) (graph : FlowGraph) :
    CompilerM CompiledFlowScope :=
  compileScopeWithUnder checkUnambiguous compile graph

/-- `compile_scope` with the nesting levels that are left. -/
def compileScopeUnder (check : EdgeCheck) : Nat → FlowGraph → CompilerM CompiledFlowScope
  | 0, _ => throw (.compositionDepthExceeded maxFlowCompositionDepth)
  | levels + 1, graph => compileScopeWithUnder check (compileScopeUnder check levels) graph

def compileScope (levels : Nat) (graph : FlowGraph) : CompilerM CompiledFlowScope :=
  compileScopeUnder checkUnambiguous levels graph

/-- A compiled plan: `Definition` is the identity of its canonical manifest. -/
structure CompiledExecutionPlan (Definition : Type) where
  definition : Definition
  jobRestartPolicy : RestartPolicy
  parameterIncrementer : Option ParameterIncrementerIdentity
  scopedComponents : ScopedComponents
  entry : NodeId
  rootScope : CompiledFlowScope
  nodes : NodeMap (FlowNode FlowGraph)
  transitions : Edges
  splitBranchScopes : BranchScopes
  nestedScopes : NodeMap CompiledFlowScope
  decisionSequences : List (NodeId × Nat)

/-- `advanced::compile`. `identify` stands for the canonical manifest of the compiled
scope and its identity under the job name and revision. -/
def compileUnder (check : EdgeCheck) (identify : AdvancedCompiler → CompiledFlowScope →
      Option ParameterIncrementerIdentity → Except PlanError Definition)
    (graph : FlowGraph) : Except PlanError (CompiledExecutionPlan Definition) := do
  let (rootScope, compiler) ← (compileScopeUnder check maxFlowCompositionDepth graph).run .default
  let definition ← identify compiler rootScope graph.parameterIncrementer
  pure
    { definition,
      jobRestartPolicy := compiler.jobRestartPolicy,
      parameterIncrementer := graph.parameterIncrementer,
      scopedComponents := compiler.scopedComponents,
      entry := rootScope.entry,
      rootScope,
      nodes := compiler.nodes,
      transitions := compiler.transitions,
      splitBranchScopes := compiler.splitBranchScopes,
      nestedScopes := compiler.nestedRecords.map fun _ record => record.scope,
      decisionSequences := compiler.transitions.keys.zipIdx 1 }

def compile (identify : AdvancedCompiler → CompiledFlowScope →
      Option ParameterIncrementerIdentity → Except PlanError Definition)
    (graph : FlowGraph) : Except PlanError (CompiledExecutionPlan Definition) :=
  compileUnder checkUnambiguous identify graph

inductive FlowSelectionError where
  | unknownNode (node : NodeId)
  | unmappedExitOutcome (node : NodeId) (code : ExitCode)
  deriving DecidableEq

/-- The first edge of a node whose pattern matches. -/
def selectFrom (transitions : Edges) (id : NodeId) (code : ExitCode) :
    Except FlowSelectionError FlowTarget :=
  match transitions[id]? with
  | none => .error (.unknownNode id)
  | some edges =>
    match edges.find? fun edge => ExitPattern.matches edge.pattern code with
    | none => .error (.unmappedExitOutcome id code)
    | some edge => .ok edge.target

def CompiledExecutionPlan.selectTarget (plan : CompiledExecutionPlan Definition) (id : NodeId)
    (code : ExitCode) : Except FlowSelectionError FlowTarget :=
  selectFrom plan.transitions id code

/-- How a walk through a flow ends. -/
inductive Ending where
  | terminal (kind : TerminalKind)
  | failed (error : FlowSelectionError)
  deriving DecidableEq

/-- One step of a walk: a split moves to its join, any other node where the
transition for its exit code leads. -/
def stepFrom (nodes : NodeMap (FlowNode FlowGraph)) (transitions : Edges)
    (codes : NodeId → ExitCode) (id : NodeId) : NodeId ⊕ Ending :=
  match nodes[id]?.bind (·.splitJoin?) with
  | some join => .inl join
  | none =>
    match selectFrom transitions id (codes id) with
    | .ok (.node target) => .inl target
    | .ok (.terminal kind) => .inr (.terminal kind)
    | .error error => .inr (.failed error)

/-- The walk of a plan from its entry; `none` is exhausted fuel. -/
def CompiledExecutionPlan.walk (plan : CompiledExecutionPlan Definition)
    (codes : NodeId → ExitCode) (fuel : Nat) : Option (List NodeId × Ending) :=
  Walk.follow (stepFrom plan.nodes plan.transitions codes) fuel plan.entry

end OxideBatch.Plan
