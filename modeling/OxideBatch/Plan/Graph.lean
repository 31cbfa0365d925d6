import Mathlib
import OxideBatch.Plan.Declaration

/-! Declared flow graphs: nodes, transitions, nested flows, and the errors of
their compilation. -/

namespace OxideBatch.Plan

open OxideBatch.Core

/-- `MAX_NODES`. -/
def maxNodes : Nat := 1024

/-- `MAX_TRANSITIONS`. -/
def maxTransitions : Nat := 4096

def maxOutgoingTransitions : Nat := 64

def maxSplitBranches : Nat := 8

def maxBranchSteps : Nat := 8

def maxFlowCompositionDepth : Nat := 8

inductive TerminalKind where
  | complete
  | fail
  | stop
  deriving DecidableEq, Repr

def TerminalKind.asStr : TerminalKind → String
  | .complete => "complete"
  | .fail => "fail"
  | .stop => "stop"

inductive FlowTarget where
  | node (id : NodeId)
  | terminal (kind : TerminalKind)
  deriving DecidableEq

def FlowTarget.sortKey : FlowTarget → Nat ×ₗ String
  | .node id => toLex (0, id.value)
  | .terminal kind => toLex (1, kind.asStr)

/-- One split branch: linear steps, or a flow. -/
structure SplitBranch (Graph : Type) where
  steps : List StepNode
  flow : Option Graph

structure SplitNode (Graph : Type) where
  id : NodeId
  branches : List (SplitBranch Graph)
  join : NodeId
  maxParallelBranches : Nat
  failurePolicy : LocalFailurePolicy

inductive FlowNode (Graph : Type) where
  | step (node : StepNode)
  | decision (node : DecisionNode)
  | nestedJob (node : NestedJobNode)
  | customLeaf (node : CustomLeafNode)
  | split (node : SplitNode Graph)
  | join (node : JoinNode)
  | partitionedStep (node : PartitionedStepNode)

def FlowNode.id {Graph : Type} : FlowNode Graph → NodeId
  | .step node => node.id
  | .decision node => node.id
  | .nestedJob node => node.id
  | .customLeaf node => node.id
  | .split node => node.id
  | .join node => node.id
  | .partitionedStep node => node.id

/-- The join a split moves to. -/
def FlowNode.splitJoin? {Graph : Type} : FlowNode Graph → Option NodeId
  | .split node => some node.join
  | _ => none

def FlowNode.isJoin {Graph : Type} : FlowNode Graph → Bool
  | .join _ => true
  | _ => false

structure FlowTransition where
  source : NodeId
  pattern : ExitPattern
  target : FlowTarget
  deriving DecidableEq

structure NestedFlow (Graph : Type) where
  id : NodeId
  graph : Graph

/-- A declared flow. -/
structure FlowGraph where
  entry : Option NodeId
  nodes : List (FlowNode FlowGraph)
  transitions : List FlowTransition
  nestedFlows : List (NestedFlow FlowGraph)
  scopedComponents : List ScopedComponentDefinition
  parameterIncrementer : Option ParameterIncrementerIdentity
  jobRestartPolicy : RestartPolicy

inductive DefinitionError where
  | manifestEncoding
  | manifestTooLarge
  deriving DecidableEq, Repr

/-- The errors of `advanced::compile`. -/
inductive PlanError where
  | missingEntryNode
  | duplicateNodeId (node : NodeId)
  | undefinedNode (node : NodeId)
  | missingTransition (node : NodeId)
  | ambiguousTransition (node : NodeId) (first second : ExitPattern)
  | unreachableNode (node : NodeId)
  | cyclicGraph (node : NodeId)
  | tooManyNodes (max : Nat)
  | tooManyTransitions (max : Nat)
  | tooManyOutgoingTransitions (node : NodeId) (max : Nat)
  | invalidSplitBranchCount (split : NodeId) (min max : Nat)
  | invalidBranchLength (split : NodeId) (max : Nat)
  | splitIsEntry (split : NodeId)
  | invalidSplitJoin (split join : NodeId)
  | joinHasMultipleOwners (join first second : NodeId)
  | orphanJoin (join : NodeId)
  | joinHasExternalEntry (join : NodeId)
  | splitHasExplicitTransition (split : NodeId)
  | parallelBudgetExceedsBranches (split : NodeId) (branches : Nat)
  | compositionDepthExceeded (max : Nat)
  | unmappedNestedFlowExit (flow : NodeId) (code : ExitCode)
  | tooManyScopedComponents (max : Nat)
  | duplicateScopedComponent (scope : ScopeKind) (component : ScopedComponentId)
  | duplicateRepeatId (repeated : RepeatId)
  | manifest (error : DefinitionError)

/-- Two equally specific patterns of one node that can match one exit code. -/
def checkUnambiguous (node : NodeId) : List FlowTransition → Except PlanError Unit
  | [] => .ok ()
  | left :: edges => do
    match edges.find? fun right =>
        ExitPattern.specificity left.pattern = ExitPattern.specificity right.pattern &&
          ExitPattern.intersects left.pattern right.pattern with
    | some right => .error (.ambiguousTransition node left.pattern right.pattern)
    | none => checkUnambiguous node edges

/-- Descending specificity, then pattern, then target. -/
def transitionRank (edge : FlowTransition) : PatternSpecificityᵒᵈ ×ₗ String ×ₗ Nat ×ₗ String :=
  toLex (OrderDual.toDual (ExitPattern.specificity edge.pattern),
    toLex (edge.pattern.value, edge.target.sortKey))

/-- The stable sort by rank. -/
def sortTransitions (edges : List FlowTransition) : List FlowTransition :=
  edges.insertionSort fun left right => transitionRank left ≤ transitionRank right

/-- The exit code a nested terminal counts as for its owner. -/
def normalizedTerminalCode : TerminalKind → ExitCode
  | .complete => ⟨"COMPLETED", Eq.refl true⟩
  | .fail => ⟨"FAILED", Eq.refl true⟩
  | .stop => ⟨"STOPPED", Eq.refl true⟩

end OxideBatch.Plan
