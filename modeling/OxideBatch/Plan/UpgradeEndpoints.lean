import OxideBatch.Plan.UpgradeContracts

/-! Which compiled flows can be the endpoints of an upgrade: the node mapping and the
checks of `DefinitionUpgrade::transformed`. -/

namespace OxideBatch.Plan

open OxideBatch.Core Program
open Json (member? hasMember insertMember objects memberObjects)
open Std (ExtTreeMap ExtTreeSet)

section Mapping

/-- The node mapping and its targets after the nodes of an upgrade. -/
structure MapsNodes (nodes : List DefinitionNodeUpgrade)
    (held : NodeMap NodeId × ExtTreeSet NodeId) : Prop where
  lookup : ∀ source target : NodeId, held.1[source]? = some target ↔ ⟨source, target⟩ ∈ nodes
  targets : ∀ target : NodeId, target ∈ held.2 ↔ ∃ node ∈ nodes, node.target = target
  injective : ∀ source source' target : NodeId, held.1[source]? = some target →
    held.1[source']? = some target → source = source'

theorem MapsNodes.snoc {nodes : List DefinitionNodeUpgrade} {node : DefinitionNodeUpgrade}
    {held held' : NodeMap NodeId × ExtTreeSet NodeId} (maps : MapsNodes nodes held)
    (mapped : mapNode held node = .ok held') : MapsNodes (nodes ++ [node]) held' := by
  unfold mapNode at mapped
  split at mapped
  · cases mapped
  · split at mapped
    · cases mapped
    · rename_i _ newSource
      split at mapped
      · cases mapped
      · rename_i newTarget
        cases mapped
        have absent : held.1[node.source]? = none := by
          apply Tables.not_mem_iff_lookup.mp
          simpa using newSource
        have unused : ∀ source : NodeId, held.1[source]? ≠ some node.target := by
          intro source found
          apply newTarget
          rw [ExtTreeSet.contains_iff_mem, maps.targets]
          exact ⟨_, (maps.lookup source node.target).mp found, rfl⟩
        refine ⟨?_, ?_, ?_⟩
        · intro source target
          rw [Tables.lookup_insert, List.mem_append, List.mem_singleton, ← maps.lookup]
          by_cases same : node.source = source
          · subst same
            rw [if_pos rfl, absent]
            constructor
            · intro found
              cases found
              exact .inr rfl
            · rintro (found | found)
              · cases found
              · rw [← found]
          · rw [if_neg same]
            constructor
            · exact .inl
            · rintro (found | found)
              · exact found
              · rw [← found] at same
                exact absurd rfl same
        · intro target
          rw [ExtTreeSet.mem_insert, Std.LawfulEqOrd.compare_eq_iff_eq, maps.targets]
          constructor
          · rintro (rfl | ⟨other, member, same⟩)
            · exact ⟨node, by simp, rfl⟩
            · exact ⟨other, by simp [member], same⟩
          · rintro ⟨other, member, same⟩
            rcases List.mem_append.mp member with old | new
            · exact .inr ⟨other, old, same⟩
            · rw [List.mem_singleton.mp new] at same
              exact .inl same
        · intro source source' target found found'
          rcases Tables.lookup_insert_cases found with ⟨rfl, rfl⟩ | ⟨_, old⟩
          · rcases Tables.lookup_insert_cases found' with ⟨rfl, _⟩ | ⟨_, old'⟩
            · rfl
            · exact absurd old' (unused source')
          · rcases Tables.lookup_insert_cases found' with ⟨_, rfl⟩ | ⟨_, old'⟩
            · exact absurd old (unused source)
            · exact maps.injective source source' target old old'

/-- The mapping of an upgrade is that of its nodes, one to one. -/
theorem mapNodes_maps {nodes : List DefinitionNodeUpgrade}
    {held : NodeMap NodeId × ExtTreeSet NodeId} (mapped : nodes.foldlM mapNode (∅, ∅) = .ok held) :
    MapsNodes nodes held := by
  have general : ∀ (rest done : List DefinitionNodeUpgrade)
      (before : NodeMap NodeId × ExtTreeSet NodeId), MapsNodes done before →
      rest.foldlM mapNode before = .ok held → MapsNodes (done ++ rest) held := by
    intro rest
    induction rest with
    | nil =>
      intro done before maps ended
      cases ended
      rwa [List.append_nil]
    | cons node rest ih =>
      intro done before maps ended
      rw [List.foldlM_cons] at ended
      obtain ⟨next, first, later⟩ := bind_eq_ok ended
      have whole := ih (done ++ [node]) next (maps.snoc first) later
      rwa [List.append_assoc] at whole
  refine general nodes [] (∅, ∅) ⟨?_, ?_, ?_⟩ mapped
  · simp
  · simp
  · intro source source' target found
    simp at found

end Mapping

section Spared

/-- The refusals that say an endpoint cannot be read or mapped. -/
def endpointRefusals : List UpgradeError :=
  [.manifestEncoding, .missingUpgradeSourceNode, .unknownUpgradeSourceNode,
    .unknownUpgradeTargetNode]

/-- A check that is never refused in one of these ways. -/
def Spared (result : UpgradeResult α) : Prop :=
  ∀ error, result = .error error → error ∉ endpointRefusals

private theorem spared_ok (value : α) : Spared (.ok value : UpgradeResult α) := by
  intro error failed
  cases failed

private theorem spared_error {error : UpgradeError} (other : error ∉ endpointRefusals) :
    Spared (.error error : UpgradeResult α) := by
  intro failure failed
  cases failed
  exact other

theorem Spared.bind {first : UpgradeResult α} {next : α → UpgradeResult β} (here : Spared first)
    (later : ∀ value, first = .ok value → Spared (next value)) : Spared (first >>= next) := by
  cases ran : first with
  | error error =>
    intro failure failed
    cases failed
    exact here error ran
  | ok value => exact later value ran

theorem Spared.foldlM {values : List α} {body : β → α → UpgradeResult β}
    (step : ∀ held, ∀ value ∈ values, Spared (body held value)) (start : β) :
    Spared (values.foldlM body start) := by
  induction values generalizing start with
  | nil => exact spared_ok start
  | cons value values ih =>
    rw [List.foldlM_cons]
    refine (step start value List.mem_cons_self).bind fun next _ => ?_
    exact ih (fun held other member => step held other (List.mem_cons_of_mem _ member)) next

theorem Spared.forM {values : List α} {body : α → UpgradeResult PUnit}
    (step : ∀ value ∈ values, Spared (body value)) : Spared (values.forM body) := by
  induction values with
  | nil => exact spared_ok _
  | cons value values ih =>
    refine (step value List.mem_cons_self).bind fun _ _ => ?_
    exact ih fun other member => step other (List.mem_cons_of_mem _ member)

private theorem spared_mapNode (held : NodeMap NodeId × ExtTreeSet NodeId)
    (node : DefinitionNodeUpgrade) :
    Spared (mapNode held node) := by
  unfold mapNode
  repeat' split
  all_goals first | exact spared_ok _ | exact spared_error (by simp [endpointRefusals])

private theorem spared_checkTransform (nodeMapping : NodeMap NodeId) (seen : List TransformKey)
    (transform : DefinitionStateTransform) : Spared (checkTransform nodeMapping seen transform) := by
  unfold checkTransform
  repeat' split
  all_goals first | exact spared_ok _ | exact spared_error (by simp [endpointRefusals])

private theorem spared_validateContract (transforms : List DefinitionStateTransform)
    (sourceNode targetNode : NodeId) (targets : List DefinitionDurableStateContract)
    (source : DefinitionDurableStateContract) :
    Spared (validateContract transforms sourceNode targetNode targets source) := by
  unfold validateContract
  repeat' split
  all_goals first | exact spared_ok _ | exact spared_error (by simp [endpointRefusals])

end Spared

section Endpoints

variable {serde : Serde} {graph graph' : FlowGraph} {jobName jobName' : JobName}
  {revision revision' : DefinitionRevision} {plan plan' : CompiledExecutionPlan DefinitionIdentity}

/-- No repeat interceptor of these kinds is, in manifest order, the first object of a node
kind that bears a declared identifier. -/
def FlowGraph.Unmasked (graph : FlowGraph) (kinds : List String) : Prop :=
  ∀ id, DeclaresId graph id → ∀ interceptor,
    graph.standings.find? (·.answers id) = some (.intercepting interceptor) →
    interceptor.kind.value ∉ kinds

/-- The flows that can be upgraded from and to. -/
structure FlowGraph.Endpoint (graph : FlowGraph) : Prop where
  walkable : graph.Walkable
  whole : ∀ node ∈ graph.nodes, node.isPartitioned = false
  unmasked : graph.Unmasked stateKinds

theorem bears_of_declared (compiled : graph.compile serde jobName revision = .ok plan)
    (flat : graph.Flat) {id : NodeId} (declared : DeclaresId graph id) :
    ∃ standing, Bears graph.nodesById standing ∧ standing.id = id := by
  have nodes := (plan_nodes_flat compiled flat).2
  rw [plan_nodesById compiled flat] at nodes
  obtain ⟨node, member, rfl | inside⟩ := (flat.declaresId id).mp declared
  · exact ⟨.declared node, .node ((nodes node.id node).mpr ⟨member, rfl⟩), rfl⟩
  · obtain ⟨step, embedded, rfl⟩ := List.mem_map.mp inside
    exact ⟨.embedded step, .step ((nodes node.id node).mpr ⟨member, rfl⟩) embedded, rfl⟩

/-- The object found under a declared identifier. -/
theorem found_of_bears (compiled : graph.compile serde jobName revision = .ok plan)
    (flat : graph.Flat) {standing : Standing} (bears : Bears graph.nodesById standing) :
    ∃ found, graph.standings.find? (·.answers standing.id) = some found ∧
      (found = standing ∨ ∃ interceptor, found = .intercepting interceptor ∧
        interceptor.kind.value ∈ nodeKinds) := by
  obtain ⟨separate, nodes⟩ := plan_nodes_flat compiled flat
  rw [plan_nodesById compiled flat] at separate nodes
  exact bears.found separate fun id node held => ((nodes id node).mp held).2

private theorem contracts_readable (faithful : serde.Faithful)
    (compiled : graph.compile serde jobName revision = .ok plan) (endpoint : graph.Endpoint)
    {id : NodeId} (declared : DeclaresId graph id) :
    ∃ contracts, definitionDurableStateContracts serde plan.definition id = .ok contracts := by
  obtain ⟨standing, bears, rfl⟩ := bears_of_declared compiled endpoint.walkable.1 declared
  obtain ⟨found, search, which⟩ := found_of_bears compiled endpoint.walkable.1 bears
  rw [contracts_walkable faithful compiled endpoint.walkable, search]
  rcases which with rfl | ⟨interceptor, rfl, _⟩
  · cases bears with
    | node _ => exact ⟨_, rfl⟩
    | step _ _ => exact ⟨_, rfl⟩
  · refine ⟨[], ?_⟩
    exact if_neg (endpoint.unmasked _ declared interceptor search)

private theorem checkSourceNodes_spared {mapping : NodeMap NodeId} {ids : ExtTreeSet NodeId}
    (same : ∀ id, id ∈ mapping ↔ id ∈ ids) : checkSourceNodes mapping ids = .ok () := by
  unfold checkSourceNodes
  rw [if_neg, if_neg]
  · simp only [List.any_eq_true, not_exists, not_and]
    intro id member
    have held := (same id).mpr (ExtTreeSet.mem_toList.mp member)
    simpa using held
  · simp only [List.any_eq_true, not_exists, not_and]
    intro id member
    have held := (same id).mp (ExtTreeMap.mem_keys.mp member)
    simpa using held

private theorem checkTargetNodes_spared {mapping : NodeMap NodeId} {ids : ExtTreeSet NodeId}
    (inside : ∀ source target : NodeId, mapping[source]? = some target → target ∈ ids) :
    checkTargetNodes mapping ids = .ok () := by
  unfold checkTargetNodes
  rw [if_neg]
  simp only [List.any_eq_true, not_exists, not_and]
  intro target member
  obtain ⟨source, found⟩ := mem_values member
  simpa using inside source target found

/-- Between two endpoints that declare the same identifiers, the identity mapping is never
refused for what the manifests hold. -/
private theorem identity_spared (faithful : serde.Faithful)
    (compiled : graph.compile serde jobName revision = .ok plan)
    (compiled' : graph'.compile serde jobName' revision' = .ok plan') (source : graph.Endpoint)
    (target : graph'.Endpoint) (declared : ∀ id, DeclaresId graph id ↔ DeclaresId graph' id)
    {nodes : List DefinitionNodeUpgrade} (identity : ∀ node ∈ nodes, node.target = node.source)
    (total : ∀ id, (∃ node ∈ nodes, node.source = id) ↔ DeclaresId graph id)
    (key : DefinitionUpgradeKey) (upgrade : DefinitionUpgradeRevision)
    (transforms : List DefinitionStateTransform) :
    Spared (DefinitionUpgrade.transformed serde key upgrade plan.definition plan'.definition nodes
      transforms) := by
  obtain ⟨ids, ran, found⟩ :=
    (source_nodes_iff faithful compiled).mpr ⟨source.walkable, source.whole⟩
  obtain ⟨ids', ran', found'⟩ :=
    (source_nodes_iff faithful compiled').mpr ⟨target.walkable, target.whole⟩
  unfold DefinitionUpgrade.transformed
  split
  · exact spared_error (by simp [endpointRefusals])
  · refine (Spared.foldlM (fun held node _ => spared_mapNode held node) _).bind ?_
    rintro ⟨mapping, targets⟩ mapped
    have maps := mapNodes_maps mapped
    have fixed : ∀ source target : NodeId, mapping[source]? = some target →
        target = source ∧ DeclaresId graph source := by
      intro source target held
      have member := (maps.lookup source target).mp held
      exact ⟨identity _ member, (total source).mp ⟨_, member, rfl⟩⟩
    have domain : ∀ id, id ∈ mapping ↔ DeclaresId graph id := by
      intro id
      rw [Tables.mem_iff_lookup]
      constructor
      · rintro ⟨target, held⟩
        exact (fixed id target held).2
      · intro declares
        obtain ⟨node, member, rfl⟩ := (total id).mpr declares
        exact ⟨node.target, (maps.lookup node.source node.target).mpr member⟩
    dsimp only
    split
    · exact spared_error (by simp [endpointRefusals])
    · rw [ran, accept_bind, checkSourceNodes_spared (fun id => (domain id).trans (found id).symm),
        accept_bind, ran', accept_bind, checkTargetNodes_spared, accept_bind]
      · split
        · exact spared_error (by simp [endpointRefusals])
        · refine (Spared.foldlM (fun held value _ => spared_checkTransform _ held value) _).bind ?_
          intro _ _
          refine Spared.bind ?_ fun _ _ => spared_ok _
          apply Spared.forM
          intro node member
          rw [ExtTreeMap.mem_toList_iff_getElem?_eq_some] at member
          obtain ⟨same, declares⟩ := fixed node.1 node.2 member
          obtain ⟨sources, read⟩ := contracts_readable faithful compiled source declares
          obtain ⟨others, read'⟩ := contracts_readable faithful compiled' target
            ((declared node.2).mp (by rw [same]; exact declares))
          unfold validateNode
          rw [read, accept_bind, read', accept_bind]
          exact Spared.forM fun contract _ => spared_validateContract _ _ _ _ _
      · intro source target held
        obtain ⟨same, declares⟩ := fixed source target held
        rw [found', ← declared, same]
        exact declares

/-- A compiled flow can be walked exactly when it is walkable, and all its identifiers are
found exactly when it also has no partitioned step. Endpoints without masking interceptors
accept the identity mapping. -/
theorem upgrade_endpoints (serde : Serde) (faithful : serde.Faithful) :
    (∀ graph jobName revision plan, FlowGraph.compile serde graph jobName revision = .ok plan →
      ((∃ ids, definitionUpgradeSourceNodes serde plan.definition = .ok ids) ↔ graph.Walkable) ∧
      ((∃ ids, definitionUpgradeSourceNodes serde plan.definition = .ok ids ∧
          ∀ id, id ∈ ids ↔ DeclaresId graph id) ↔
        graph.Walkable ∧ ∀ node ∈ graph.nodes, node.isPartitioned = false)) ∧
    ∀ (graph graph' : FlowGraph) (jobName jobName' : JobName)
      (revision revision' : DefinitionRevision)
      (plan plan' : CompiledExecutionPlan DefinitionIdentity),
      graph.compile serde jobName revision = .ok plan →
      graph'.compile serde jobName' revision' = .ok plan' → graph.Endpoint → graph'.Endpoint →
      (∀ id, DeclaresId graph id ↔ DeclaresId graph' id) →
      ∀ nodes : List DefinitionNodeUpgrade, (∀ node ∈ nodes, node.target = node.source) →
      (∀ id, (∃ node ∈ nodes, node.source = id) ↔ DeclaresId graph id) →
      ∀ key upgrade transforms error, DefinitionUpgrade.transformed serde key upgrade
          plan.definition plan'.definition nodes transforms = .error error →
        error ∉ endpointRefusals := by
  constructor
  · intro graph jobName revision plan compiled
    refine ⟨⟨?_, ?_⟩, source_nodes_iff faithful compiled⟩
    · rintro ⟨ids, ran⟩
      by_contra unwalkable
      obtain ⟨error, refused⟩ := source_nodes_refused faithful compiled unwalkable
      rw [refused] at ran
      cases ran
    · intro walkable
      obtain ⟨ids, ran, _⟩ := source_nodes_walkable faithful compiled walkable
      exact ⟨ids, ran⟩
  · intro graph graph' jobName jobName' revision revision' plan plan' compiled compiled' source target
      declared nodes identity total key upgrade transforms
    exact identity_spared faithful compiled compiled' source target declared identity total key
      upgrade transforms

private theorem pairFlow_not_flat : ¬ (pairFlow false).Flat := by
  rintro ⟨_, flat⟩
  have split := flat _ (List.mem_cons_of_mem _ List.mem_cons_self)
  exact absurd (split _ (List.mem_cons_of_mem _ List.mem_cons_self)) (by simp)

/-- A flow branch makes a compiled flow unreadable as an endpoint. -/
theorem pairFlow_is_no_endpoint : ¬ ∀ (serde : Serde) (_ : serde.Faithful) (graph : FlowGraph)
    (jobName : JobName) (revision : DefinitionRevision)
    (plan : CompiledExecutionPlan DefinitionIdentity),
    graph.compile serde jobName revision = .ok plan →
    ∃ ids, definitionUpgradeSourceNodes serde plan.definition = .ok ids ∧
      ∀ id, id ∈ ids ↔ DeclaresId graph id := by
  intro endpoints
  obtain ⟨plan, compiled⟩ := plan_of_isOk
    (show ((pairFlow false).compile pairReader fanJob ⟨"r1", by decide⟩).isOk = true by
      decide +kernel)
  have faithful := oneSerde_faithful pairManifest
    0x3f161f2cc8153a637cd9934149eee4b4e3a04aa4d9947d98b26aa196d7587564
  have walked := endpoints pairReader faithful _ fanJob _ plan compiled
  exact pairFlow_not_flat ((source_nodes_iff faithful compiled).mp walked).1.1

private theorem declaresId_chunkFlow (revisions : ChunkComponentRevisions) (id : NodeId) :
    DeclaresId (chunkFlow revisions) id ↔ id = ⟨"load", by decide⟩ := by
  have flat : (chunkFlow revisions).Flat := ⟨rfl, by simp [chunkFlow, FlowNode.Flat]⟩
  rw [flat.declaresId]
  simp [chunkFlow, chunkStep, FlowNode.id, FlowNode.embeddedIds, FlowNode.embeddedSteps]

theorem chunkFlow_unintercepted (revisions : ChunkComponentRevisions)
    (interceptor : RepeatInterceptorDefinition) :
    .intercepting interceptor ∉ (chunkFlow revisions).standings := by
  intro member
  obtain ⟨held, among, inside⟩ := List.mem_flatMap.mp member
  rw [ExtTreeMap.mem_toList_iff_getElem?_eq_some] at among
  rcases Tables.lookup_insertAll_cases among with listed | old
  · obtain ⟨node, declared, same⟩ := List.mem_map.mp listed
    rw [← (Prod.mk.inj same).2, List.mem_singleton.mp declared] at inside
    simp [FlowNode.standing, StepNode.interceptors, StepNode.repeatLevels, chunkStep] at inside
  · simp at old

private theorem chunkFlow_endpoint (revisions : ChunkComponentRevisions) :
    (chunkFlow revisions).Endpoint := by
  refine ⟨⟨⟨rfl, by simp [chunkFlow, FlowNode.Flat]⟩, by simp [chunkFlow, FlowNode.splitJoin?]⟩,
    by simp [chunkFlow, FlowNode.isPartitioned], ?_⟩
  intro id _ interceptor found
  exact absurd (List.mem_of_find?_eq_some found) (chunkFlow_unintercepted revisions interceptor)

/-- Two revisions of a chunk flow are endpoints of each other's upgrades. -/
theorem chunkFlow_upgrades :
    ∃ plan plan', chunkCompiled (chunkRevisions firstReader none) = .ok plan ∧
      chunkCompiled (chunkRevisions secondReader none) = .ok plan' ∧
      (∃ ids, definitionUpgradeSourceNodes chunkSerde plan.definition = .ok ids) ∧
      ∀ key upgrade transforms error, DefinitionUpgrade.transformed chunkSerde key upgrade
          plan.definition plan'.definition
          [⟨⟨"load", by decide⟩, ⟨"load", by decide⟩⟩] transforms = .error error →
        error ∉ endpointRefusals := by
  obtain ⟨plan, compiled⟩ := plan_of_isOk
    (show (chunkCompiled (chunkRevisions firstReader none)).isOk = true by decide +kernel)
  obtain ⟨plan', compiled'⟩ := plan_of_isOk
    (show (chunkCompiled (chunkRevisions secondReader none)).isOk = true by decide +kernel)
  have endpoints := upgrade_endpoints chunkSerde chunkSerde_faithful
  refine ⟨plan, plan', compiled, compiled', ?_, ?_⟩
  · exact (endpoints.1 _ _ _ plan compiled).1.mpr (chunkFlow_endpoint _).walkable
  · refine endpoints.2 _ _ _ _ _ _ plan plan' compiled compiled' (chunkFlow_endpoint _)
      (chunkFlow_endpoint _) ?_ _ (by simp) ?_
    · intro id
      rw [declaresId_chunkFlow, declaresId_chunkFlow]
    · intro id
      rw [declaresId_chunkFlow]
      simp [eq_comm]

end Endpoints

end OxideBatch.Plan
