import OxideBatch.Plan.UpgradeStanding

/-! The durable-state contracts that are read from the manifest of a walkable flow: those
of the first object that bears the identifier of the node. -/

namespace OxideBatch.Plan

open OxideBatch.Core Program
open Json (member? hasMember insertMember objects memberObjects)
open Std (ExtTreeMap ExtTreeSet)

/-- The nodes in the order of their identifiers. -/
def FlowGraph.nodesById (graph : FlowGraph) : NodeMap (FlowNode FlowGraph) :=
  Tables.insertAll ∅ (graph.nodes.map fun node => (node.id, node))

/-- What stands in the manifest of a flat flow, in its order. -/
def FlowGraph.standings (graph : FlowGraph) : List Standing :=
  graph.nodesById.toList.flatMap (·.2.standing)

/-- The contracts a flow declares for a node, or for a step inside one, at any depth. -/
def DeclaresContract (graph : FlowGraph) (id : NodeId) (contract : DefinitionDurableStateContract) :
    Prop :=
  ∃ node, Declares graph node ∧ ((node.id = id ∧ contract ∈ node.contracts) ∨
    ∃ step ∈ node.embeddedSteps, step.id = id ∧ contract ∈ step.contracts)

section Plans

variable {serde : Serde} {graph : FlowGraph} {jobName : JobName} {revision : DefinitionRevision}
  {plan : CompiledExecutionPlan DefinitionIdentity} {compiler : AdvancedCompiler}
  {scope : CompiledFlowScope} {entry : NodeId} {localScale : Bool} {outgoing : Edges}

theorem plan_nodesById (compiled : graph.compile serde jobName revision = .ok plan)
    (flat : graph.Flat) : plan.nodes = graph.nodesById := by
  have nodes := (plan_nodes_flat compiled flat).2
  apply ExtTreeMap.ext_getElem?
  intro id
  cases here : graph.nodesById[id]? with
  | none =>
    rw [Option.eq_none_iff_forall_ne_some]
    intro node found
    obtain ⟨member, rfl⟩ := (nodes id node).mp found
    refine Tables.not_mem_iff_lookup.mpr here (Tables.mem_insertAll.mpr (.inl ⟨node, ?_⟩))
    exact List.mem_map.mpr ⟨node, member, rfl⟩
  | some node =>
    rw [nodes]
    rcases Tables.lookup_insertAll_cases here with listed | old
    · obtain ⟨other, member, same⟩ := List.mem_map.mp listed
      cases same
      exact ⟨member, rfl⟩
    · simp at old

theorem AdvancedPlan.presents (advanced : AdvancedPlan serde graph jobName plan compiler scope)
    (flat : graph.Flat) :
    Presents (plan.nodes.toList.flatMap (·.2.standing))
      (compiler.manifest jobName scope graph.parameterIncrementer).objects := by
  apply presents_manifest
  rw [nodeValues_flat (advanced.flat flat).1, advanced.nodes, List.flatMap_map]
  apply Presents.flatMap
  intro held member
  rw [ExtTreeMap.mem_toList_iff_getElem?_eq_some] at member
  obtain ⟨declares, named⟩ := (advanced.installed held.1 held.2).mp member
  exact presents_node (flat.2 held.2 (flat.declares.mp declares))
    (advanced.straight (by rw [named]; exact member)) _

theorem BasePlan.presents (base : BasePlan serde graph jobName revision plan entry localScale outgoing)
    (splitless : ∀ node ∈ graph.nodes, node.splitJoin? = none) :
    Presents (plan.nodes.toList.flatMap (·.2.standing))
      (baseDocument jobName entry plan.nodes outgoing localScale).objects := by
  refine (presents_plain (by simp [text]) (by simp [text]) ?_).objects
  rw [Tables.values_eq, List.map_map, List.flatMap_map]
  apply Presents.flatMap
  intro held member
  rw [ExtTreeMap.mem_toList_iff_getElem?_eq_some, base.declared] at member
  have own := base.flat.declares.mp member.1
  have plain := splitless held.2 own
  have same : held.2.manifestValue = advancedNodeManifest ∅ held.2 none := by
    cases shape : held.2 with
    | split split =>
      rw [shape] at plain
      cases plain
    | step _ | decision _ | nestedJob _ | customLeaf _ | join _ | partitionedStep _ => rfl
  change Presents _ held.2.manifestValue.objects
  rw [same]
  refine presents_node (base.flat.2 held.2 own) (fun split shape => ?_) none
  rw [shape] at plain
  cases plain

/-- The document of a walkable flow presents what stands in the flow. -/
private theorem presents_walkable (faithful : serde.Faithful)
    (compiled : graph.compile serde jobName revision = .ok plan) (walkable : graph.Walkable) :
    ∃ document, serde.fromSlice plan.definition.canonicalManifest = some document ∧
      flowFormat document = some plan.definition.manifestFormat ∧
      Presents graph.standings document.objects := by
  unfold FlowGraph.standings
  rw [← plan_nodesById compiled walkable.1]
  rcases compile_cases compiled with ⟨compiler, scope, advanced⟩ | ⟨entry, localScale, outgoing, base⟩
  · obtain ⟨read, format⟩ := advanced.identified.read faithful advanced.integral
    exact ⟨_, read, format, advanced.presents walkable.1⟩
  · obtain ⟨read, format⟩ :=
      base.identified.read faithful (Json.containsFloat_of_every _ base.every)
    exact ⟨_, read, format, base.presents (walkable.2 base.plain)⟩

/-- The contracts of a node are those of the first object that answers to it. -/
theorem contracts_walkable (faithful : serde.Faithful)
    (compiled : graph.compile serde jobName revision = .ok plan) (walkable : graph.Walkable)
    (id : NodeId) :
    definitionDurableStateContracts serde plan.definition id =
      match graph.standings.find? (·.answers id) with
      | some standing => standing.contracts
      | none => .error .manifestEncoding := by
  obtain ⟨document, read, format, presents⟩ := presents_walkable faithful compiled walkable
  have found := presents.find id
  unfold definitionDurableStateContracts manifestDocument
  rw [read, orMalformed_some, accept_bind, if_neg (flowFormat_ne_one format),
    findDefinitionNode_eq]
  generalize graph.standings.find? (·.answers id) = first at found ⊢
  generalize document.objects.find? (isDefinitionNode id) = second at found ⊢
  cases found with
  | none => rfl
  | some shows => exact shows.contracts

end Plans

section Bearers

variable {graph : FlowGraph} {nodes : NodeMap (FlowNode FlowGraph)} {id : NodeId}

/-- A node of the flow or a step inside one. -/
inductive Bears (nodes : NodeMap (FlowNode FlowGraph)) : Standing → Prop
  | node {owner : NodeId} {node : FlowNode FlowGraph} (held : nodes[owner]? = some node) :
      Bears nodes (.declared node)
  | step {owner : NodeId} {node : FlowNode FlowGraph} {step : StepNode}
      (held : nodes[owner]? = some node) (inside : step ∈ node.embeddedSteps) :
      Bears nodes (.embedded step)

private theorem bears_or_intercepts {standing : Standing}
    (member : standing ∈ nodes.toList.flatMap (·.2.standing)) :
    Bears nodes standing ∨ ∃ interceptor, standing = .intercepting interceptor := by
  obtain ⟨held, among, inside⟩ := List.mem_flatMap.mp member
  rw [ExtTreeMap.mem_toList_iff_getElem?_eq_some] at among
  have below : ∀ step ∈ held.2.embeddedSteps, standing ∈ step.standing →
      Bears nodes standing ∨ ∃ interceptor, standing = .intercepting interceptor := by
    intro step embedded inside
    rcases List.mem_cons.mp inside with rfl | later
    · exact .inl (.step among embedded)
    · obtain ⟨interceptor, _, rfl⟩ := List.mem_map.mp later
      exact .inr ⟨interceptor, rfl⟩
  cases shape : held.2 with
  | step step =>
    rw [shape] at inside
    rcases List.mem_cons.mp inside with rfl | later
    · exact .inl (.node (shape ▸ among))
    · obtain ⟨interceptor, _, rfl⟩ := List.mem_map.mp later
      exact .inr ⟨interceptor, rfl⟩
  | split _ | partitionedStep _ | decision _ | nestedJob _ | customLeaf _ | join _ =>
    rw [shape] at inside below
    rcases List.mem_cons.mp inside with rfl | later
    · exact .inl (.node (shape ▸ among))
    · obtain ⟨step, embedded, inside'⟩ := List.mem_flatMap.mp later
      exact below step embedded inside'

/-- Every node and every embedded step stands in the manifest. -/
theorem Bears.stands {standing : Standing} (bears : Bears nodes standing) :
    standing ∈ nodes.toList.flatMap (·.2.standing) := by
  cases bears with
  | @node owner node held =>
    refine List.mem_flatMap.mpr ⟨(owner, node), ExtTreeMap.mem_toList_iff_getElem?_eq_some.mpr held, ?_⟩
    cases node <;> exact List.mem_cons_self
  | @step owner node step held inside =>
    refine List.mem_flatMap.mpr ⟨(owner, node), ExtTreeMap.mem_toList_iff_getElem?_eq_some.mpr held, ?_⟩
    cases node with
    | split _ | partitionedStep _ =>
      exact List.mem_cons_of_mem _ (List.mem_flatMap.mpr ⟨step, inside, List.mem_cons_self⟩)
    | step _ | decision _ | nestedJob _ | customLeaf _ | join _ => cases inside

/-- No two of them share an identifier. -/
theorem Bears.unique (separate : Separate nodes)
    (keyed : ∀ (id : NodeId) node, nodes[id]? = some node → node.id = id) {first second : Standing}
    (left : Bears nodes first) (right : Bears nodes second) (same : first.id = second.id) :
    first = second := by
  have outside : ∀ {owner other : NodeId} {node holder : FlowNode FlowGraph} {step : StepNode},
      nodes[owner]? = some node → nodes[other]? = some holder → step ∈ holder.embeddedSteps →
      node.id ≠ step.id := by
    intro owner other node holder step held held' inside same
    have absent := separate.outside held' (List.mem_map_of_mem inside)
    rw [← same, keyed owner node held, held] at absent
    cases absent
  cases left with
  | @node owner node held =>
    cases right with
    | @node other node' held' =>
      have equal : owner = other := by
        rw [← keyed owner node held, ← keyed other node' held']
        exact same
      rw [← equal, held] at held'
      rw [Option.some.inj held']
    | step held' inside => exact absurd same (outside held held' inside)
  | @step owner holder step held inside =>
    cases right with
    | node held' => exact absurd same.symm (outside held' held inside)
    | @step other holder' step' held' inside' =>
      change step.id = step'.id at same
      have equal := separate.unique held held' (List.mem_map_of_mem inside)
        (by rw [same]; exact List.mem_map_of_mem inside')
      rw [← equal, held] at held'
      cases held'
      have distinct := (List.nodup_flatMap.mp separate.distinct).1 _
        (ExtTreeMap.mem_toList_iff_getElem?_eq_some.mpr held)
      rw [List.inj_on_of_nodup_map distinct inside inside' same]

/-- Who is found under the identifier of a node or an embedded step: itself, unless an
interceptor of a node kind bears the identifier before it. -/
theorem Bears.found (separate : Separate nodes)
    (keyed : ∀ (id : NodeId) node, nodes[id]? = some node → node.id = id) {standing : Standing}
    (bears : Bears nodes standing) :
    ∃ found, (nodes.toList.flatMap (·.2.standing)).find? (·.answers standing.id) = some found ∧
      (found = standing ∨ ∃ interceptor, found = .intercepting interceptor ∧
        interceptor.kind.value ∈ nodeKinds) := by
  have answers : standing.answers standing.id = true := by
    have kind : standing.kind ∈ nodeKinds := by
      cases bears with
      | @node _ node _ => cases node <;> simp [Standing.kind, FlowNode.kindName, nodeKinds]
      | step _ _ => simp [Standing.kind, nodeKinds]
    simp [Standing.answers, kind]
  cases search : (nodes.toList.flatMap (·.2.standing)).find? (·.answers standing.id) with
  | none =>
    have none := List.find?_eq_none.mp search standing bears.stands
    rw [answers] at none
    exact absurd rfl none
  | some found =>
    refine ⟨found, rfl, ?_⟩
    have foundAnswers := List.find?_some search
    simp only [Standing.answers, Bool.and_eq_true, List.contains_iff_mem, decide_eq_true_eq]
      at foundAnswers
    rcases bears_or_intercepts (List.mem_of_find?_eq_some search) with other | ⟨interceptor, rfl⟩
    · exact .inl (Bears.unique separate keyed other bears foundAnswers.2)
    · exact .inr ⟨interceptor, rfl, foundAnswers.1⟩

end Bearers

end OxideBatch.Plan
