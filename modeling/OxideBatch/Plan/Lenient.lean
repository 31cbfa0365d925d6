import OxideBatch.Plan.Base
import OxideBatch.Lib.Guards

/-! The compilers under two checks of the edges of a node. Compilation answers what it
answers without the check of ambiguity, or fails for ambiguity. -/

namespace OxideBatch.Plan

open OxideBatch.Core Guarding
open Std (ExtTreeMap ExtTreeSet)

/-- The failure of a node whose two equally specific patterns meet. -/
def PlanError.Ambiguous (failure : PlanError) : Prop :=
  ∃ node first second, failure = .ambiguousTransition node first second ∧
    ExitPattern.specificity first = ExitPattern.specificity second ∧
    ExitPattern.intersects first second = true

private theorem checkUnambiguous_guards (node : NodeId) (edges : List FlowTransition) :
    Guards PlanError.Ambiguous (checkUnambiguous node edges) (.ok ()) := by
  induction edges with
  | nil => exact Guards.refl _
  | cons left edges ih =>
    rw [checkUnambiguous]
    cases found : edges.find? fun right =>
        ExitPattern.specificity left.pattern = ExitPattern.specificity right.pattern &&
          ExitPattern.intersects left.pattern right.pattern with
    | none => exact ih
    | some right =>
      have meet := List.find?_some found
      rw [Bool.and_eq_true, decide_eq_true_eq] at meet
      exact Guards.failed ⟨node, left.pattern, right.pattern, rfl, meet⟩ _

/-- `FlowGraph::compile` without the check. -/
def Lenient.compile (serde : Serde) (graph : FlowGraph) (jobName : JobName)
    (revision : DefinitionRevision) :
    Except PlanError (CompiledExecutionPlan DefinitionIdentity) :=
  graph.compileUnder (fun _ _ => .ok ()) serde jobName revision

section Guards

variable {own : PlanError → Prop} {check free : EdgeCheck}
  (checks : ∀ node edges, Guards own (check node edges) (free node edges))

include checks

private theorem validateNestedExits_guards (nestedScopes : NodeMap CompiledFlowScope)
    (nestedExits : Edges) :
    Guards own (validateNestedExitsUnder check nestedScopes nestedExits)
      (validateNestedExitsUnder free nestedScopes nestedExits) := by
  refine Guards.foldlM (fun held owner => ?_) _ _
  cases held[owner]?.getD [] with
  | nil => exact Guards.refl _
  | cons edge edges => exact Guards.bind (checks owner _) fun _ => Guards.refl _

private theorem validateMember_guards (compiler : AdvancedCompiler) (members : ExtTreeSet NodeId)
    (id : NodeId) :
    Guards own (validateMemberUnder check compiler members id)
      (validateMemberUnder free compiler members id) := by
  unfold validateMemberUnder
  cases compiler.nodes[id]? with
  | none => exact Guards.refl _
  | some node =>
    dsimp only
    by_cases splits : node.splitJoin?.isSome = true
    · rw [if_pos splits, if_pos splits]
      exact Guards.refl _
    · rw [if_neg splits, if_neg splits]
      cases compiler.transitions[id]?.getD [] with
      | nil => exact Guards.refl _
      | cons edge edges => exact Guards.bind (checks id _) fun _ => Guards.refl _

private theorem validateScope_guards (compiler : AdvancedCompiler) (entry : NodeId)
    (members : ExtTreeSet NodeId) :
    Guards own (validateScopeUnder check compiler entry members)
      (validateScopeUnder free compiler entry members) := by
  unfold validateScopeUnder
  by_cases outside : (!members.contains entry) = true
  · rw [if_pos outside, if_pos outside]
    exact Guards.refl _
  · rw [if_neg outside, if_neg outside]
    exact Guards.bind (Guards.forM (validateMember_guards checks compiler members) _)
      fun _ => Guards.refl _

section Scopes

variable {descend descend' : FlowGraph → CompilerM CompiledFlowScope}

omit checks in
private theorem compileNestedScopes_guards
    (inner : ∀ graph, GuardsRun own (descend graph) (descend' graph))
    (nested : NodeMap FlowGraph) :
    GuardsRun own (compileNestedScopes descend nested)
      (compileNestedScopes descend' nested) := by
  refine GuardsRun.foldlM (fun scopes flow => ?_) _ _
  exact GuardsRun.bind (inner flow.2) fun _ => GuardsRun.refl _

omit checks in
private theorem materializeBranch_guards
    (inner : ∀ graph, GuardsRun own (descend graph) (descend' graph))
    (id : NodeId) (ordinal : Nat) (branch : SplitBranch FlowGraph) :
    GuardsRun own (materializeBranch descend id ordinal branch)
      (materializeBranch descend' id ordinal branch) := by
  refine GuardsRun.next fun _ => GuardsRun.next fun _ => ?_
  cases branch.flow with
  | none => exact GuardsRun.refl _
  | some flow => exact GuardsRun.bind (inner flow) fun _ => GuardsRun.refl _

omit checks in
private theorem materializeSplit_guards
    (inner : ∀ graph, GuardsRun own (descend graph) (descend' graph))
    (declaredEntry id : NodeId) (split : SplitNode FlowGraph)
    (localNodes : NodeMap (FlowNode FlowGraph)) (joinOwners : NodeMap NodeId) :
    GuardsRun own
      (materializeSplit descend declaredEntry id split localNodes joinOwners)
      (materializeSplit descend' declaredEntry id split localNodes joinOwners) := by
  unfold materializeSplit
  split
  · exact GuardsRun.refl _
  · split
    · exact GuardsRun.refl _
    · split
      · exact GuardsRun.refl _
      · split
        · exact GuardsRun.refl _
        · split
          · exact GuardsRun.refl _
          · exact GuardsRun.bind (GuardsRun.forM
              (fun branch => materializeBranch_guards inner _ _ _) _) fun _ => GuardsRun.refl _

omit checks in
private theorem materializeLocalStructure_guards
    (inner : ∀ graph, GuardsRun own (descend graph) (descend' graph))
    (declaredEntry : NodeId) (localNodes : NodeMap (FlowNode FlowGraph)) :
    GuardsRun own (materializeLocalStructure descend declaredEntry localNodes)
      (materializeLocalStructure descend' declaredEntry localNodes) := by
  refine GuardsRun.bind (GuardsRun.foldlM (fun owners entry => ?_) _ _) fun _ => GuardsRun.refl _
  unfold materializeNode
  split
  · exact materializeSplit_guards inner _ _ _ _ _
  · exact GuardsRun.refl _
  · exact GuardsRun.refl _

private theorem compileScopeWith_guards
    (inner : ∀ graph, GuardsRun own (descend graph) (descend' graph))
    (graph : FlowGraph) :
    GuardsRun own (compileScopeWithUnder check descend graph)
      (compileScopeWithUnder free descend' graph) := by
  refine GuardsRun.next fun prepared => ?_
  refine GuardsRun.bind (compileNestedScopes_guards inner _) fun nestedScopes => ?_
  refine GuardsRun.bind (materializeLocalStructure_guards inner _ _) fun _ => ?_
  refine GuardsRun.next fun partitions => ?_
  refine GuardsRun.bind (GuardsRun.lift (validateNestedExits_guards checks _ _)) fun nestedExits => ?_
  refine GuardsRun.next fun outgoing => GuardsRun.next fun _ => GuardsRun.next fun _ => ?_
  refine GuardsRun.next fun compiler => ?_
  exact GuardsRun.bind (GuardsRun.lift (validateScope_guards checks _ _ _)) fun _ => GuardsRun.refl _

private theorem compileScope_guards (levels : Nat) : ∀ graph,
    GuardsRun own (compileScopeUnder check levels graph) (compileScopeUnder free levels graph) := by
  induction levels with
  | zero => exact fun graph => GuardsRun.refl _
  | succ levels inner => exact compileScopeWith_guards checks inner

end Scopes

private theorem checkOutgoing_guards (outgoing : Edges) (declared : NodeId × FlowNode FlowGraph) :
    Guards own (checkOutgoingUnder check outgoing declared)
      (checkOutgoingUnder free outgoing declared) := by
  unfold checkOutgoingUnder
  by_cases splits : declared.2.splitJoin?.isSome = true
  · rw [if_pos splits, if_pos splits]
    exact Guards.refl _
  · rw [if_neg splits, if_neg splits]
    cases outgoing[declared.1]?.getD [] with
    | nil => exact Guards.refl _
    | cons edge edges => exact checks declared.1 _

private theorem compileBase_guards (serde : Serde) (jobName : JobName)
    (revision : DefinitionRevision)
    (graph : FlowGraph) :
    Guards own (compileBaseUnder check serde jobName revision graph)
      (compileBaseUnder free serde jobName revision graph) := by
  unfold compileBaseUnder
  cases graph.entry with
  | none => exact Guards.refl _
  | some entry =>
    dsimp only
    split
    · exact Guards.refl _
    · split
      · exact Guards.refl _
      · refine Guards.bind (Guards.refl _) fun nodes => ?_
        split
        · exact Guards.refl _
        · refine Guards.bind (Guards.refl _) fun localScale => ?_
          refine Guards.bind (Guards.refl _) fun outgoing => ?_
          exact Guards.bind (Guards.forM (checkOutgoing_guards checks outgoing) _)
            fun _ => Guards.refl _

private theorem compileUnder_guards (serde : Serde) (graph : FlowGraph) (jobName : JobName)
    (revision : DefinitionRevision) :
    Guards own (graph.compileUnder check serde jobName revision)
      (graph.compileUnder free serde jobName revision) := by
  unfold FlowGraph.compileUnder
  split
  · exact Guards.bind (compileScope_guards checks _ graph .default) fun _ => Guards.refl _
  · exact compileBase_guards checks serde jobName revision graph

end Guards

/-- Compilation answers what the lenient compiler answers, or fails for ambiguity. -/
theorem compile_guards (serde : Serde) (graph : FlowGraph) (jobName : JobName)
    (revision : DefinitionRevision) :
    Guards PlanError.Ambiguous (graph.compile serde jobName revision)
      (Lenient.compile serde graph jobName revision) :=
  compileUnder_guards checkUnambiguous_guards serde graph jobName revision

end OxideBatch.Plan
