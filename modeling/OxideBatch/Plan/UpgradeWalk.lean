import OxideBatch.Plan.FlatCompile

/-! `definition_upgrade_source_nodes` on compiled flows: which of them it can walk, and
which identifiers it finds in those. -/

namespace OxideBatch.Plan

open OxideBatch.Core Program
open Json (member? hasMember insertMember)
open Std (ExtTreeMap ExtTreeSet)

section Declared

/-- The identifiers a flow declares: those of its nodes, of the steps inside them, and of
its nested flows, at any depth. -/
inductive DeclaresId : FlowGraph → NodeId → Prop
  | node {graph : FlowGraph} {node : FlowNode FlowGraph} (member : node ∈ graph.nodes) :
      DeclaresId graph node.id
  | embedded {graph : FlowGraph} {node : FlowNode FlowGraph} {id : NodeId}
      (member : node ∈ graph.nodes) (inside : id ∈ node.embeddedIds) : DeclaresId graph id
  | flow {graph : FlowGraph} {flow : NestedFlow FlowGraph} (member : flow ∈ graph.nestedFlows) :
      DeclaresId graph flow.id
  | nested {graph : FlowGraph} {flow : NestedFlow FlowGraph} {id : NodeId}
      (member : flow ∈ graph.nestedFlows) (inner : DeclaresId flow.graph id) : DeclaresId graph id
  | branch {graph inner : FlowGraph} {split : SplitNode FlowGraph} {branch : SplitBranch FlowGraph}
      {id : NodeId} (member : .split split ∈ graph.nodes) (among : branch ∈ split.branches)
      (flow : branch.flow = some inner) (declared : DeclaresId inner id) : DeclaresId graph id

/-- A flat flow declares its own nodes alone. -/
theorem FlowGraph.Flat.declares {graph : FlowGraph} (flat : graph.Flat) {node : FlowNode FlowGraph} :
    Declares graph node ↔ node ∈ graph.nodes := by
  constructor
  · intro declares
    cases declares with
    | own member => exact member
    | nested member _ =>
      rw [flat.1] at member
      cases member
    | branch member among flow _ =>
      have linear := flat.2 _ member _ among
      rw [flow] at linear
      cases linear
  · exact .own

theorem FlowGraph.Flat.declaresId {graph : FlowGraph} (flat : graph.Flat) (id : NodeId) :
    DeclaresId graph id ↔ ∃ node ∈ graph.nodes, id = node.id ∨ id ∈ node.embeddedIds := by
  constructor
  · intro declares
    cases declares with
    | node member => exact ⟨_, member, .inl rfl⟩
    | embedded member inside => exact ⟨_, member, .inr inside⟩
    | flow member =>
      rw [flat.1] at member
      cases member
    | nested member _ =>
      rw [flat.1] at member
      cases member
    | branch member among flow _ =>
      have linear := flat.2 _ member _ among
      rw [flow] at linear
      cases linear
  · rintro ⟨node, member, rfl | inside⟩
    · exact .node member
    · exact .embedded member inside

/-- The flows whose manifest the upgrade walk can read: flat ones, without splits unless
the format is the advanced one. -/
def FlowGraph.Walkable (graph : FlowGraph) : Prop :=
  graph.Flat ∧
    (graph.requiresAdvancedFormat = false → ∀ node ∈ graph.nodes, node.splitJoin? = none)

def FlowNode.isPartitioned : FlowNode FlowGraph → Bool
  | .partitionedStep _ => true
  | _ => false

/-- The identifiers the walk finds in a node. -/
def FlowNode.walkedIds : FlowNode FlowGraph → List NodeId
  | .split node => node.id :: (FlowNode.split node).embeddedIds
  | node => [node.id]

theorem FlowNode.mem_walkedIds {node : FlowNode FlowGraph} {id : NodeId} :
    id ∈ node.walkedIds ↔
      id = node.id ∨ (node.isPartitioned = false ∧ id ∈ node.embeddedIds) := by
  cases node with
  | split node => simp [walkedIds, isPartitioned, FlowNode.id]
  | partitionedStep node => simp [walkedIds, isPartitioned, FlowNode.id]
  | step _ | decision _ | nestedJob _ | customLeaf _ | join _ =>
    simp [walkedIds, embeddedIds, embeddedSteps, FlowNode.id]

end Declared

section Nodes

variable {scopes : BranchScopes} {node : FlowNode FlowGraph} {members : List (String × Json)}

private theorem gathers_split {split : SplitNode FlowGraph} (flat : (FlowNode.split split).Flat)
    (projects : Projects scopes (.split split) members)
    (straight : ∀ (ordinal : Nat) (branch : SplitBranch FlowGraph),
      split.branches[ordinal]? = some branch →
      scopes[(split.id, ordinal)]?.isSome = branch.flow.isSome) :
    Gathers (collectUpgradeNode (.object members)) (FlowNode.split split).walkedIds := by
  change Gathers _ (split.id :: (FlowNode.split split).embeddedIds)
  rw [FlowNode.embeddedIds_split]
  apply gathers_projected projects
  have present : member? "branches" members =
      some (.array (split.branches.zipIdx.map (branchManifest scopes split.id))) := by
    rw [projects _ (by decide)]
    simp [advancedNodeValue, splitManifest]
  intro result
  rw [collectBranchesOf_eq, present]
  refine gathers_branches split.branches 0 flat ?_ result
  intro ordinal branch found
  rw [Nat.zero_add]
  exact straight ordinal branch found

private theorem gathers_flat (flat : node.Flat) (projects : Projects scopes node members)
    (straight : ∀ split, node = .split split → ∀ (ordinal : Nat) (branch : SplitBranch FlowGraph),
      split.branches[ordinal]? = some branch →
      scopes[(split.id, ordinal)]?.isSome = branch.flow.isSome) :
    Gathers (collectUpgradeNode (.object members)) node.walkedIds := by
  cases node with
  | split split => exact gathers_split flat projects (straight split rfl)
  | step _ | decision _ | nestedJob _ | customLeaf _ | join _ | partitionedStep _ =>
    exact gathers_plain projects (by simp)

/-- A split with a flow branch cannot be walked. -/
private theorem refuses_split {split : SplitNode FlowGraph}
    (projects : Projects scopes (.split split) members)
    {ordinal : Nat} (within : ordinal < split.branches.length) {inner : CompiledFlowScope}
    (placed : scopes[(split.id, ordinal)]? = some inner) (entry : inner.entry ∈ inner.members) :
    Refuses (collectUpgradeNode (.object members)) := by
  have present : member? "branches" members =
      some (.array (split.branches.zipIdx.map (branchManifest scopes split.id))) := by
    rw [projects _ (by decide)]
    simp [advancedNodeValue, splitManifest]
  rw [collectUpgradeNode_object]
  apply Refuses.behind
  apply Refuses.behind
  intro result
  rw [collectBranchesOf_eq, present]
  refine refuses_flow_branch within ?_ entry result
  rw [Nat.zero_add]
  exact placed

/-- A nested flow names its members instead of listing them. -/
private theorem refuses_nested {owner : NodeId} {record : NestedRecord}
    (entry : record.scope.entry ∈ record.scope.members) :
    Refuses (collectUpgradeNode (nestedManifest owner record)) := by
  have some : record.scope.members.toList ≠ [] :=
    List.ne_nil_of_mem (ExtTreeSet.mem_toList.mpr entry)
  let members : List (String × Json) :=
    [("entry", text record.scope.entry),
     ("exits", .array (record.exits.map FlowTransition.manifestValue)),
     ("id", text owner),
     ("kind", .string "nested_flow"),
     ("members", membersManifest record.scope)]
  have children : Refuses (collectUnder "members" members) :=
    refuses_under (by simp [members, membersManifest]) (refuses_texts some)
  change Refuses (collectUpgradeNode (.object members))
  rw [collectUpgradeNode_object]
  exact (children.bind.bind).behind

/-- Nor can a split of a base format be walked: its branches are bare arrays. -/
private theorem refuses_base_split {split : SplitNode FlowGraph} (several : split.branches ≠ []) :
    Refuses (collectUpgradeNode (FlowNode.split split).manifestValue) := by
  obtain ⟨branch, branches, shape⟩ := List.exists_cons_of_ne_nil several
  change Refuses (collectUpgradeNode (splitManifest split _))
  unfold splitManifest
  rw [collectUpgradeNode_object]
  apply Refuses.behind
  apply Refuses.behind
  intro result
  refine ⟨.manifestEncoding, ?_⟩
  rw [collectBranchesOf_eq]
  simp only [Json.member?_cons, if_true, shape, List.map_cons, SplitBranch.manifestValue]
  unfold collectBranches
  rfl

private theorem gathers_base (plain : node.splitJoin? = none) :
    Gathers (collectUpgradeNode node.manifestValue) node.walkedIds := by
  have same : node.manifestValue = advancedNodeManifest ∅ node none := by
    cases node with
    | split split => cases plain
    | step _ | decision _ | nestedJob _ | customLeaf _ | join _ | partitionedStep _ => rfl
  obtain ⟨members, shown, projects⟩ := projects_advancedNodeManifest ∅ node none
  rw [same, shown]
  cases node with
  | split split => cases plain
  | step _ | decision _ | nestedJob _ | customLeaf _ | join _ | partitionedStep _ =>
    exact gathers_plain projects (by simp)

end Nodes

section Source

variable {serde : Serde} {graph : FlowGraph} {jobName : JobName} {revision : DefinitionRevision}
  {plan : CompiledExecutionPlan DefinitionIdentity} {compiler : AdvancedCompiler}
  {scope : CompiledFlowScope} {entry : NodeId} {localScale : Bool} {outgoing : Edges}

/-- A flow manifest declares no one-step format. -/
theorem flowFormat_ne_one {document : Json} {format : Nat}
    (declared : flowFormat document = some format) : format ≠ manifestFormatOneStep := by
  have among := (Option.filter_eq_some_iff.mp declared).2
  rintro rfl
  simp [manifestFormatFlow, manifestFormatLocalScale, manifestFormatAdvancedFlow,
    manifestFormatOneStep] at among

private theorem source_nodes_of_read {definition : DefinitionIdentity}
    {members : List (String × Json)}
    {values : List Json}
    (read : serde.fromSlice definition.canonicalManifest = some (.object members))
    (format : flowFormat (.object members) = some definition.manifestFormat)
    (nodes : member? "nodes" members = some (.array values)) :
    definitionUpgradeSourceNodes serde definition = collectUpgradeNodeIds values ∅ := by
  unfold definitionUpgradeSourceNodes manifestDocument
  rw [read]
  change (if definition.manifestFormat = manifestFormatOneStep then _ else _) = _
  rw [if_neg (flowFormat_ne_one format), nodes]
  rfl

theorem AdvancedPlan.source_nodes (faithful : serde.Faithful)
    (advanced : AdvancedPlan serde graph jobName plan compiler scope) :
    definitionUpgradeSourceNodes serde plan.definition =
      collectUpgradeNodeIds compiler.nodeValues.values ∅ := by
  obtain ⟨read, format⟩ := advanced.identified.read faithful advanced.integral
  obtain ⟨members, same, shape⟩ := advancedMembers compiler jobName scope graph.parameterIncrementer
  rw [same] at read format
  exact source_nodes_of_read read format shape.nodes

theorem BasePlan.source_nodes (faithful : serde.Faithful)
    (base : BasePlan serde graph jobName revision plan entry localScale outgoing) :
    definitionUpgradeSourceNodes serde plan.definition =
      collectUpgradeNodeIds (plan.nodes.values.map FlowNode.manifestValue) ∅ := by
  obtain ⟨read, format⟩ := base.identified.read faithful (Json.containsFloat_of_every _ base.every)
  exact source_nodes_of_read read format (by simp)

/-- Without nested flows, the entries are the projected nodes. -/
theorem nodeValues_flat (unnested : compiler.nestedRecords = ∅) :
    compiler.nodeValues.values = compiler.nodes.toList.map fun held =>
      advancedNodeManifest compiler.splitBranchScopes held.2
        (decisionSequence (assignDecisionSequences compiler.transitions) held.1) := by
  have records : compiler.nestedRecords.toList = [] := by
    rw [unnested]
    rfl
  unfold AdvancedCompiler.nodeValues
  rw [records, List.foldl_nil, Tables.values_eq, ExtTreeMap.toList_map, List.map_map]
  rfl

theorem AdvancedPlan.gathers (advanced : AdvancedPlan serde graph jobName plan compiler scope)
    (flat : graph.Flat) :
    Gathers (collectUpgradeNodeIds compiler.nodeValues.values)
      (plan.nodes.toList.flatMap (·.2.walkedIds)) := by
  rw [nodeValues_flat (advanced.flat flat).1, advanced.nodes]
  apply gathers_each
  intro held member
  rw [ExtTreeMap.mem_toList_iff_getElem?_eq_some] at member
  obtain ⟨declares, named⟩ := (advanced.installed held.1 held.2).mp member
  have own := flat.declares.mp declares
  obtain ⟨members, shown, projects⟩ := projects_advancedNodeManifest compiler.splitBranchScopes held.2
    (decisionSequence (assignDecisionSequences compiler.transitions) held.1)
  rw [shown]
  exact gathers_flat (flat.2 held.2 own) projects (advanced.straight (by rw [named]; exact member))

theorem BasePlan.gathers (base : BasePlan serde graph jobName revision plan entry localScale outgoing)
    (splitless : ∀ node ∈ graph.nodes, node.splitJoin? = none) :
    Gathers (collectUpgradeNodeIds (plan.nodes.values.map FlowNode.manifestValue))
      (plan.nodes.toList.flatMap (·.2.walkedIds)) := by
  rw [Tables.values_eq, List.map_map]
  apply gathers_each
  intro held member
  rw [ExtTreeMap.mem_toList_iff_getElem?_eq_some, base.declared] at member
  exact gathers_base (splitless held.2 (base.flat.declares.mp member.1))

/-- The nodes of a flat flow's plan are the declared ones. -/
theorem plan_nodes_flat (compiled : graph.compile serde jobName revision = .ok plan)
    (flat : graph.Flat) : Separate plan.nodes ∧ ∀ (id : NodeId) node,
      plan.nodes[id]? = some node ↔ node ∈ graph.nodes ∧ node.id = id := by
  rcases compile_cases compiled with ⟨compiler, scope, advanced⟩ | ⟨entry, localScale, outgoing, base⟩
  · rw [advanced.nodes]
    refine ⟨(advanced.flat flat).2, fun id node => ?_⟩
    rw [advanced.installed, flat.declares]
  · refine ⟨base.separate, fun id node => ?_⟩
    rw [base.declared, flat.declares]

private theorem mem_walked (compiled : graph.compile serde jobName revision = .ok plan)
    (flat : graph.Flat)
    (id : NodeId) : id ∈ plan.nodes.toList.flatMap (·.2.walkedIds) ↔
      ∃ node ∈ graph.nodes, id ∈ node.walkedIds := by
  have nodes := (plan_nodes_flat compiled flat).2
  rw [List.mem_flatMap]
  constructor
  · rintro ⟨held, member, inside⟩
    rw [ExtTreeMap.mem_toList_iff_getElem?_eq_some, nodes] at member
    exact ⟨held.2, member.1, inside⟩
  · rintro ⟨node, member, inside⟩
    refine ⟨(node.id, node), ?_, inside⟩
    rw [ExtTreeMap.mem_toList_iff_getElem?_eq_some, nodes]
    exact ⟨member, rfl⟩

/-- A walkable flow is walked, and the identifiers found are those of its nodes and of
the steps in its splits. -/
theorem source_nodes_walkable (faithful : serde.Faithful)
    (compiled : graph.compile serde jobName revision = .ok plan) (walkable : graph.Walkable) :
    ∃ ids, definitionUpgradeSourceNodes serde plan.definition = .ok ids ∧
      ∀ id, id ∈ ids ↔ ∃ node ∈ graph.nodes, id ∈ node.walkedIds := by
  have whole : ∃ walk, definitionUpgradeSourceNodes serde plan.definition = walk ∅ ∧
      Gathers walk (plan.nodes.toList.flatMap (·.2.walkedIds)) := by
    rcases compile_cases compiled with ⟨compiler, scope, advanced⟩ | ⟨entry, localScale, outgoing, base⟩
    · exact ⟨_, advanced.source_nodes faithful, advanced.gathers walkable.1⟩
    · exact ⟨_, base.source_nodes faithful, base.gathers (walkable.2 base.plain)⟩
  obtain ⟨walk, same, gathers⟩ := whole
  obtain ⟨ids, ran, found⟩ := gathers ∅
  refine ⟨ids, same.trans ran, fun id => ?_⟩
  rw [found, mem_walked compiled walkable.1]
  simp

theorem BasePlan.branched (base : BasePlan serde graph jobName revision plan entry localScale outgoing)
    {split : SplitNode FlowGraph} (member : .split split ∈ graph.nodes) : split.branches ≠ [] := by
  obtain ⟨_, folded, _⟩ := bind_eq_ok base.stages.scaled
  have installed := (base.declared split.id (.split split)).mpr ⟨.own member, rfl⟩
  obtain ⟨held, next, checked⟩ := foldlM_each folded (split.id, .split split)
    (ExtTreeMap.mem_toList_iff_getElem?_eq_some.mpr installed)
  rintro none
  unfold checkLocalNode checkSplit at checked
  dsimp only at checked
  rw [none] at checked
  split at checked
  · cases checked
  · rw [if_pos (by simp)] at checked
    cases checked

private theorem compile_advanced (compiled : graph.compile serde jobName revision = .ok plan)
    (advanced : graph.requiresAdvancedFormat = true) :
    ∃ compiler scope, AdvancedPlan serde graph jobName plan compiler scope := by
  rcases compile_cases compiled with found | ⟨entry, localScale, outgoing, base⟩
  · exact found
  · rw [base.plain] at advanced
    cases advanced

private theorem compile_base (compiled : graph.compile serde jobName revision = .ok plan)
    (plain : graph.requiresAdvancedFormat = false) :
    ∃ entry localScale outgoing,
      BasePlan serde graph jobName revision plan entry localScale outgoing := by
  unfold FlowGraph.compile FlowGraph.compileUnder at compiled
  rw [plain, if_neg Bool.false_ne_true] at compiled
  obtain ⟨entry, nodes, localScale, outgoing, definition, stages, rfl⟩ := compileBase_stages compiled
  exact ⟨entry, localScale, outgoing, plain, stages⟩

theorem mem_values_of_lookup {values : NodeMap Value} {id : NodeId} {value : Value}
    (found : values[id]? = some value) : value ∈ values.values := by
  rw [Tables.values_eq]
  exact List.mem_map.mpr ⟨(id, value), ExtTreeMap.mem_toList_iff_getElem?_eq_some.mpr found, rfl⟩

theorem AdvancedPlan.refuses_nested_flow
    (advanced : AdvancedPlan serde graph jobName plan compiler scope)
    {flow : NestedFlow FlowGraph} (member : flow ∈ graph.nestedFlows) :
    Refuses (collectUpgradeNodeIds compiler.nodeValues.values) := by
  obtain ⟨record, held, entered⟩ := advanced.bounded member
  have found := (nodeValues_lookup compiler flow.id).1 record held
  exact refuses_each (mem_values_of_lookup found) (refuses_nested entered)

theorem AdvancedPlan.refuses_branch_flow
    (advanced : AdvancedPlan serde graph jobName plan compiler scope)
    {split : SplitNode FlowGraph} (member : .split split ∈ graph.nodes)
    {branch : SplitBranch FlowGraph} (among : branch ∈ split.branches)
    (flow : branch.flow.isSome = true) :
    Refuses (collectUpgradeNodeIds compiler.nodeValues.values) := by
  obtain ⟨ordinal, within, inner, entered, placed⟩ := advanced.branch_scope member among flow
  have installed := (advanced.installed split.id (.split split)).mpr ⟨.own member, rfl⟩
  have found := nodeValues_node advanced.rooted.1 installed
  obtain ⟨members, shown, projects⟩ := projects_advancedNodeManifest compiler.splitBranchScopes
    (.split split) (decisionSequence (assignDecisionSequences compiler.transitions) split.id)
  rw [shown] at found
  exact refuses_each (mem_values_of_lookup found) (refuses_split projects within placed entered)

theorem AdvancedPlan.refuses (advanced : AdvancedPlan serde graph jobName plan compiler scope)
    (deep : ¬ graph.Flat) : Refuses (collectUpgradeNodeIds compiler.nodeValues.values) := by
  by_cases nested : graph.nestedFlows = []
  · have branched : ∃ node ∈ graph.nodes, ¬ node.Flat := by
      by_contra none
      exact deep ⟨nested, fun node member => by_contra fun inner => none ⟨node, member, inner⟩⟩
    obtain ⟨node, member, inner⟩ := branched
    cases node with
    | split split =>
      simp only [FlowNode.Flat, not_forall] at inner
      obtain ⟨branch, among, flow⟩ := inner
      exact advanced.refuses_branch_flow member among (Option.isSome_iff_ne_none.mpr flow)
    | step _ | decision _ | nestedJob _ | customLeaf _ | join _ | partitionedStep _ =>
      exact absurd trivial inner
  · obtain ⟨flow, flows, shape⟩ := List.exists_cons_of_ne_nil nested
    exact advanced.refuses_nested_flow (by rw [shape]; exact List.mem_cons_self)

theorem BasePlan.refuses (base : BasePlan serde graph jobName revision plan entry localScale outgoing)
    {split : SplitNode FlowGraph} (member : .split split ∈ graph.nodes) :
    Refuses (collectUpgradeNodeIds (plan.nodes.values.map FlowNode.manifestValue)) := by
  have installed := (base.declared split.id (.split split)).mpr ⟨.own member, rfl⟩
  exact refuses_each (List.mem_map_of_mem (mem_values_of_lookup installed))
    (refuses_base_split (base.branched member))

/-- A flow that is not walkable is refused. -/
theorem source_nodes_refused (faithful : serde.Faithful)
    (compiled : graph.compile serde jobName revision = .ok plan) (unwalkable : ¬ graph.Walkable) :
    ∃ error, definitionUpgradeSourceNodes serde plan.definition = .error error := by
  cases format : graph.requiresAdvancedFormat with
  | true =>
    obtain ⟨compiler, scope, advanced⟩ := compile_advanced compiled format
    rw [advanced.source_nodes faithful]
    refine advanced.refuses (fun flat => unwalkable ⟨flat, ?_⟩) ∅
    rw [format]
    exact nofun
  | false =>
    obtain ⟨entry, localScale, outgoing, base⟩ := compile_base compiled format
    rw [base.source_nodes faithful]
    have split : ∃ split, .split split ∈ graph.nodes := by
      by_contra none
      apply unwalkable
      refine ⟨base.flat, fun _ node member => ?_⟩
      cases node with
      | split split => exact absurd ⟨split, member⟩ none
      | step _ | decision _ | nestedJob _ | customLeaf _ | join _ | partitionedStep _ => rfl
    obtain ⟨split, member⟩ := split
    exact base.refuses member ∅

/-- The walk finds every declared identifier exactly when the flow is walkable and has no
partitioned step, whose worker the walk passes over. -/
theorem source_nodes_iff (faithful : serde.Faithful)
    (compiled : graph.compile serde jobName revision = .ok plan) :
    (∃ ids, definitionUpgradeSourceNodes serde plan.definition = .ok ids ∧
        ∀ id, id ∈ ids ↔ DeclaresId graph id) ↔
      graph.Walkable ∧ ∀ node ∈ graph.nodes, node.isPartitioned = false := by
  constructor
  · rintro ⟨ids, ran, found⟩
    have walkable : graph.Walkable := by
      by_contra unwalkable
      obtain ⟨error, refused⟩ := source_nodes_refused faithful compiled unwalkable
      rw [refused] at ran
      cases ran
    refine ⟨walkable, fun node member => ?_⟩
    obtain ⟨ids', ran', found'⟩ := source_nodes_walkable faithful compiled walkable
    rw [ran] at ran'
    cases ran'
    cases node with
    | partitionedStep node =>
      obtain ⟨separate, nodes⟩ := plan_nodes_flat compiled walkable.1
      have here := (nodes node.id (.partitionedStep node)).mpr ⟨member, rfl⟩
      have inside : node.worker.id ∈ (FlowNode.partitionedStep node).embeddedIds :=
        List.mem_singleton_self _
      obtain ⟨other, among, walked⟩ := (found' _).mp ((found _).mpr (.embedded member inside))
      have there := (nodes other.id other).mpr ⟨among, rfl⟩
      rcases FlowNode.mem_walkedIds.mp walked with same | ⟨whole, inside'⟩
      · rw [← same, separate.outside here inside] at there
        cases there
      · rw [← separate.unique here there inside inside', here] at there
        cases there
        cases whole
    | step _ | decision _ | nestedJob _ | customLeaf _ | join _ | split _ => rfl
  · rintro ⟨walkable, whole⟩
    obtain ⟨ids, ran, found⟩ := source_nodes_walkable faithful compiled walkable
    refine ⟨ids, ran, fun id => ?_⟩
    rw [found, walkable.1.declaresId]
    refine exists_congr fun node => and_congr_right fun member => ?_
    rw [FlowNode.mem_walkedIds, whole node member]
    simp

end Source

end OxideBatch.Plan
