import OxideBatch.Plan.TallyScope

/-! The boundaries of nested flows keep every transition, and a whole compilation
reserves exactly what its plan holds. -/

namespace OxideBatch.Plan

open OxideBatch.Core Program
open Std (ExtTreeMap ExtTreeSet)

section Edges

theorem pushTransition_total (pushed : pushTransition edges transition = .ok edges') :
    Tables.total List.length edges' = Tables.total List.length edges + 1 := by
  obtain ⟨_, rfl⟩ := pushTransition_ok.mp pushed
  have changed : Tables.total List.length (edges.insert transition.source
        (edgesOf edges transition.source ++ [transition])) +
      edges[transition.source]?.elim 0 List.length = Tables.total List.length edges +
        (edgesOf edges transition.source ++ [transition]).length := Tables.total_insert
  have held : (edgesOf edges transition.source).length =
      edges[transition.source]?.elim 0 List.length := by
    unfold edgesOf
    cases edges[transition.source]? with
    | none => rfl
    | some _ => rfl
  rw [List.length_append, List.length_singleton, held] at changed
  omega

/-- Every declared transition goes to one of the partitions. -/
private theorem partitionTransitions_total
    (partition : partitionTransitions transitions localNodes nestedScopes = .ok partitions) :
    Tables.total List.length partitions.1 + Tables.total List.length partitions.2 =
      transitions.length := by
  have general : ∀ (transitions : List FlowTransition) (held : Edges × Edges),
      transitions.foldlM (partitionTransition localNodes nestedScopes) held = .ok partitions →
      Tables.total List.length partitions.1 + Tables.total List.length partitions.2 =
        Tables.total List.length held.1 + Tables.total List.length held.2 + transitions.length := by
    intro transitions
    induction transitions with
    | nil =>
      intro held ended
      cases ended
      rfl
    | cons transition transitions ih =>
      intro held ended
      rw [List.foldlM_cons] at ended
      obtain ⟨middle, placed, rest⟩ := bind_eq_ok ended
      have later := ih middle rest
      rw [List.length_cons]
      obtain ⟨_, ⟨_, same, pushed⟩ | ⟨_, same, pushed⟩⟩ := partitionTransition_ok.mp placed
      · have more := pushTransition_total pushed
        rw [same] at later
        omega
      · have more := pushTransition_total pushed
        rw [same] at later
        omega
  have whole := general transitions (∅, ∅) partition
  simpa using whole

/-- Exits stand under owners of nested flows. -/
private theorem partitionTransitions_owners
    (partition : partitionTransitions transitions localNodes nestedScopes = .ok partitions) :
    ∀ id : NodeId, partitions.2[id]? ≠ none → nestedScopes.contains id = true := by
  have kept : ∀ (held : Edges × Edges) transition next,
      (∀ id : NodeId, held.2[id]? ≠ none → nestedScopes.contains id = true) →
      partitionTransition localNodes nestedScopes held transition = .ok next →
      ∀ id : NodeId, next.2[id]? ≠ none → nestedScopes.contains id = true := by
    intro held transition next owners placed id present
    obtain ⟨_, ⟨owned, _, pushed⟩ | ⟨_, same, _⟩⟩ := partitionTransition_ok.mp placed
    · have held' : next.2.contains id = true := by
        rw [ExtTreeMap.contains_eq_isSome_getElem?]
        exact Option.isSome_iff_ne_none.mpr present
      rcases pushTransition_contains pushed held' with rfl | old
      · exact owned
      · apply owners
        rw [ExtTreeMap.contains_eq_isSome_getElem?] at old
        exact Option.isSome_iff_ne_none.mp old
    · rw [same] at present
      exact owners id present
  refine foldlM_ok kept ?_ partition
  intro id present
  simp at present

/-- Every owner has exits. -/
private theorem validateNestedExits_some
    (validated : validateNestedExits nestedScopes declared = .ok sorted) (owner : NodeId)
    (nested : nestedScopes.contains owner = true) : declared[owner]? ≠ none := by
  refine (foldlM_pointwise (fun _ declared _ => declared ≠ none) ?_ ?_ validated).2 owner ?_
  · intro held id held' updated
    split at updated
    · cases updated
    · rename_i edge edges found
      obtain ⟨_, _, same⟩ := bind_eq_ok updated
      cases same
      refine ⟨fun other away => getElem?_insert_ne (Ne.symm away), ?_⟩
      intro absent
      rw [absent] at found
      cases found
  · exact ExtTreeMap.nodup_keys
  · simpa using nested

/-- The exits of all owners together are the partition of exits. -/
private theorem exits_total
    (partition : partitionTransitions transitions localNodes nestedScopes = .ok partitions)
    (validated : validateNestedExits nestedScopes partitions.2 = .ok nestedExits) :
    (nestedScopes.toList.map fun entry => (edgesOf nestedExits entry.1).length).sum =
      Tables.total List.length partitions.2 := by
  have sorted : ∀ entry ∈ nestedScopes.toList,
      (edgesOf nestedExits entry.1).length = (edgesOf partitions.2 entry.1).length := by
    intro entry member
    have owned : nestedScopes.contains entry.1 = true := by
      rw [ExtTreeMap.contains_eq_isSome_getElem?,
        ExtTreeMap.mem_toList_iff_getElem?_eq_some.mp member]
      rfl
    unfold edgesOf
    rw [(validateNestedExits_sorted validated entry.1 owned).1, Option.getD_some,
      (sortTransitions_perm _).length_eq]
  rw [List.map_congr_left sorted]
  have same : Tables.total List.length (nestedScopes.map fun owner _ => edgesOf partitions.2 owner) =
      Tables.total List.length partitions.2 := by
    apply Tables.total_congr
    intro id
    rw [ExtTreeMap.getElem?_map]
    cases here : nestedScopes[id]? with
    | none =>
      have absent : partitions.2[id]? = none := by
        by_contra present
        have owned := partitionTransitions_owners partition id present
        rw [ExtTreeMap.contains_eq_isSome_getElem?, here] at owned
        cases owned
      rw [absent]
      exact .none
    | some scope =>
      have owned : nestedScopes.contains id = true := by
        rw [ExtTreeMap.contains_eq_isSome_getElem?, here]
        rfl
      obtain ⟨edges, found⟩ := Option.ne_none_iff_exists'.mp
        (validateNestedExits_some validated id owned)
      rw [edgesOf, found]
      exact .some rfl
  rw [← same, Tables.total, ExtTreeMap.toList_map, List.map_map]
  rfl

end Edges

section Boundaries

/-- What the boundaries of nested flows add to the plan: one record for each of them,
and no transition more or less. -/
structure Bordered (nestedExits : Edges) (entries : List (NodeId × CompiledFlowScope))
    (before after : AdvancedCompiler) : Prop where
  rest : after =
    { before with transitions := after.transitions, nestedRecords := after.nestedRecords }
  edges : Tables.total List.length after.transitions = Tables.total List.length before.transitions
  size : after.nestedRecords.size = before.nestedRecords.size + entries.length
  exits : Tables.total (fun record => record.exits.length) after.nestedRecords =
    Tables.total (fun record => record.exits.length) before.nestedRecords +
      (entries.map fun entry => (edgesOf nestedExits entry.1).length).sum
  records : ∀ id : NodeId, after.nestedRecords[id]? ≠ none →
    id ∈ entries.map (·.1) ∨ before.nestedRecords[id]? ≠ none
  others : ∀ id : NodeId, id ∉ entries.map (·.1) →
    after.nestedRecords[id]? = before.nestedRecords[id]?

private theorem rewriteNestedTerminals_total
    (rewrote : rewriteNestedTerminals owner scope exits transitions = .ok transitions') :
    Tables.total List.length transitions' = Tables.total List.length transitions := by
  obtain ⟨others, members⟩ := rewriteNestedTerminals_rewritten rewrote
  apply Tables.total_congr
  intro id
  have refl : ∀ edges : Option (List FlowTransition),
      Option.Rel (fun left right : List FlowTransition => left.length = right.length) edges edges := by
    intro edges
    cases edges with
    | none => exact .none
    | some _ => exact .some rfl
  by_cases inside : id ∈ scope.members
  · have rewritten := members id inside
    cases here : transitions[id]? with
    | none =>
      rw [here] at rewritten
      rw [show transitions'[id]? = none from rewritten]
      exact .none
    | some edges =>
      rw [here] at rewritten
      obtain ⟨changed, mapped, found⟩ := rewritten
      rw [found]
      exact .some (mapM_ok mapped).length_eq.symm
  · rw [others id inside]
    exact refl _

private theorem normalizeNestedBoundary_bordered (fresh : before.nestedRecords[owner]? = none)
    (yields : normalizeNestedBoundary nestedScopes nestedExits owner scope before = .ok ((), after)) :
    Bordered nestedExits [(owner, scope)] before after := by
  unfold normalizeNestedBoundary at yields
  cases found : nestedExits[owner]? with
  | none =>
    rw [found] at yields
    cases yields
  | some exits =>
    rw [found] at yields
    obtain ⟨_, middle, got, rest⟩ := yields_bind yields
    cases got
    obtain ⟨transitions, _, lifted, ending⟩ := yields_bind rest
    obtain ⟨rewrote, rfl⟩ := yields_lift lifted
    cases ending
    refine ⟨rfl, rewriteNestedTerminals_total rewrote, ?_, ?_, ?_, ?_⟩
    · exact Tables.size_insert_fresh fresh
    · refine (Tables.total_insert_fresh fresh).trans ?_
      simp [edgesOf, found]
    · intro id present
      by_cases same : owner = id
      · exact .inl (by simp [same])
      · right
        intro absent
        apply present
        rw [getElem?_insert_ne same]
        exact absent
    · intro id outside
      exact getElem?_insert_ne fun same => outside (by simp [same])

private theorem normalizeNestedBoundaries_bordered {entries : List (NodeId × CompiledFlowScope)}
    (distinct : (entries.map (·.1)).Nodup)
    (fresh : ∀ entry ∈ entries, before.nestedRecords[entry.1]? = none)
    (yields : entries.forM (fun entry =>
      normalizeNestedBoundary nestedScopes nestedExits entry.1 entry.2) before = .ok ((), after)) :
    Bordered nestedExits entries before after := by
  induction entries generalizing before with
  | nil =>
    cases yields
    exact ⟨rfl, rfl, rfl, rfl, fun _ => .inr, fun _ _ => rfl⟩
  | cons entry entries ih =>
    obtain ⟨_, middle, first, later⟩ := yields_bind yields
    have one := normalizeNestedBoundary_bordered (fresh entry List.mem_cons_self) first
    obtain ⟨away, distinct'⟩ := List.nodup_cons.mp distinct
    have rest := ih distinct' ?_ later
    · refine ⟨?_, rest.edges.trans one.edges, ?_, ?_, ?_, ?_⟩
      · rw [rest.rest, one.rest]
      · rw [rest.size, one.size]
        simp only [List.length_cons, List.length_nil]
        omega
      · rw [rest.exits, one.exits, List.map_cons, List.sum_cons]
        simp only [List.map_cons, List.map_nil, List.sum_cons, List.sum_nil]
        omega
      · intro id present
        rcases rest.records id present with later | middle
        · exact .inl (List.mem_cons_of_mem _ later)
        · rcases one.records id middle with here | old
          · rw [List.mem_singleton.mp here]
            exact .inl List.mem_cons_self
          · exact .inr old
      · intro id outside
        simp only [List.map_cons, List.mem_cons, not_or] at outside
        rw [rest.others id outside.2, one.others id (by simpa using outside.1)]
    · intro other member
      have different : other.1 ∉ [(entry.1, entry.2)].map (·.1) := by
        intro same
        apply away
        rw [← List.mem_singleton.mp same]
        exact List.mem_map_of_mem member
      rw [one.others other.1 different]
      exact fresh other (List.mem_cons_of_mem _ member)

end Boundaries

section Install

theorem insertFresh_total {weight : Value → Nat} {taken : NodeId → Bool} {held result : NodeMap Value}
    {entries : List (NodeId × Value)} (inserted : insertFresh taken held entries = .ok result) :
    Tables.total weight result =
      Tables.total weight held + (entries.map fun entry => weight entry.2).sum := by
  induction entries generalizing held with
  | nil =>
    cases inserted
    rfl
  | cons entry entries ih =>
    unfold insertFresh at inserted
    rw [List.foldlM_cons] at inserted
    split at inserted
    · cases inserted
    · rename_i unused
      simp only [Bool.or_eq_true, not_or, Bool.not_eq_true] at unused
      have absent : held[entry.1]? = none :=
        ExtTreeMap.getElem?_eq_none_of_contains_eq_false unused.2
      rw [ih inserted, Tables.total_insert_fresh absent, List.map_cons, List.sum_cons]
      omega

/-- A scope's own nodes and edges are added to those of the plan. -/
structure Settled (localNodes : NodeMap (FlowNode FlowGraph)) (outgoing : Edges)
    (before after : AdvancedCompiler) : Prop where
  rest : after = { before with nodes := after.nodes, transitions := after.transitions }
  nodes : ∀ weight, Tables.total weight after.nodes =
    Tables.total weight before.nodes + Tables.total weight localNodes
  edges : Tables.total List.length after.transitions =
    Tables.total List.length before.transitions + Tables.total List.length outgoing

private theorem install_settled {nestedScopes : NodeMap CompiledFlowScope}
    (installing : installLocalNodes localNodes before = .ok ((), middle))
    (connecting : installTransitions (outgoing.map fun _ edges => edges.map
      (resolveEdge nestedScopes)) middle = .ok ((), after)) :
    Settled localNodes outgoing before after := by
  obtain ⟨_, _, got, inserting⟩ := yields_bind installing
  cases got
  obtain ⟨nodes, _, lifted, ending⟩ := yields_bind inserting
  obtain ⟨inserted, rfl⟩ := yields_lift lifted
  cases ending
  obtain ⟨_, _, got', inserting'⟩ := yields_bind connecting
  cases got'
  obtain ⟨transitions, _, lifted', ending'⟩ := yields_bind inserting'
  obtain ⟨inserted', rfl⟩ := yields_lift lifted'
  cases ending'
  refine ⟨rfl, fun weight => insertFresh_total inserted, ?_⟩
  refine (insertFresh_total inserted').trans ?_
  rw [ExtTreeMap.toList_map, List.map_map, List.map_map, Tables.total, Tables.total]
  simp only [Function.comp_def, (sortTransitions_perm _).length_eq, List.length_map]

end Install

section Compile

variable {descend : FlowGraph → CompilerM CompiledFlowScope} {graph : FlowGraph}
  {before first second middle third fourth after : AdvancedCompiler} {prepared : PreparedScope}
  {nestedScopes : NodeMap CompiledFlowScope} {partitions : Edges × Edges} {nestedExits : Edges}
  {scope : CompiledFlowScope}

/-- The nodes that nested flows and flow branches of a scope declare. -/
def Deeper (prepared : PreparedScope) (node : FlowNode FlowGraph) : Prop :=
  (∃ flow ∈ prepared.nested.toList, Declares flow.2 node) ∨
    ∃ entry ∈ prepared.localNodes.toList, entry.2.Inner node

/-- A flow declares its own nodes and those deeper in it. -/
theorem Gathered.declares (gathered : Gathered graph prepared) (node : FlowNode FlowGraph) :
    Declares graph node ↔ node ∈ graph.nodes ∨ Deeper prepared node := by
  constructor
  · intro declares
    cases declares with
    | own member => exact .inl member
    | @nested _ _ flow member inner =>
      refine .inr (.inl ⟨(flow.id, flow.graph), ?_, inner⟩)
      rw [ExtTreeMap.mem_toList_iff_getElem?_eq_some, gathered.flows]
      exact ⟨_, member, rfl, rfl⟩
    | @branch _ _ _ split _ member among flow declared =>
      refine .inr (.inr ⟨(split.id, .split split), ?_, _, rfl, _, among, _, flow, declared⟩)
      rw [ExtTreeMap.mem_toList_iff_getElem?_eq_some, gathered.nodes]
      exact ⟨member, rfl⟩
  · rintro (member | ⟨flow, among, inner⟩ | ⟨entry, among, split, same, branch, inside, inner, flow,
      declared⟩)
    · exact .own member
    · rw [ExtTreeMap.mem_toList_iff_getElem?_eq_some, gathered.flows] at among
      obtain ⟨declaredFlow, present, _, same⟩ := among
      rw [← same] at inner
      exact .nested present inner
    · rw [ExtTreeMap.mem_toList_iff_getElem?_eq_some, gathered.nodes, same] at among
      exact .branch among.1 inside flow declared

/-- Nested flows and branches of a scope, before its own nodes are installed. -/
theorem Stages.inner_tallied (tallies : Tallies descend) (rooted : Rooted before)
    (stages : Stages descend graph before first second middle third fourth after prepared
      nestedScopes partitions nestedExits scope) :
    Rooted middle ∧
      Tallied (· ∈ prepared.localNodes.keys)
        (prepared.localNodes.size + prepared.nested.size +
          Tables.total FlowNode.embedded prepared.localNodes)
        graph.transitions.length
        (fun id => (prepared.localNodes.values.flatMap (·.repeatIds)).count id)
        (Deeper prepared) before middle ∧
      (∀ id ∈ prepared.localNodes.keys ++ prepared.nested.keys,
        id ∉ before.allIds ∧ id ∈ first.allIds ∧ id ∈ middle.allIds ∧
          middle.nodes[id]? = none ∧ middle.nestedRecords[id]? = none) ∧
      ∀ entry ∈ prepared.localNodes.toList, Recorded middle entry := by
  obtain ⟨adds, _⟩ := adds_prepareScope stages.preparing
  obtain ⟨_, quiet, reserved⟩ := prepareScope_prepared stages.preparing
  obtain ⟨rooted', nested⟩ :=
    compileNestedScopes_tallied tallies (rooted.of_adds adds) stages.nesting
  obtain ⟨owners, folded, _⟩ := materializeLocalStructure_yields stages.materializing
  have keys : prepared.localNodes.toList.map Prod.fst = prepared.localNodes.keys :=
    ExtTreeMap.map_fst_toList_eq_keys
  have unborn : ∀ id ∈ prepared.localNodes.keys ++ prepared.nested.keys,
      first.nodes[id]? = none ∧ first.nestedRecords[id]? = none ∧
        ∀ ordinal : Nat, first.splitBranchScopes[(id, ordinal)]? = none := by
    intro id member
    have free := (reserved id member).1
    rw [quiet.nodes, quiet.records, quiet.branches]
    refine ⟨?_, ?_, fun ordinal => ?_⟩
    · by_contra present
      obtain ⟨node, found⟩ := Option.ne_none_iff_exists'.mp present
      exact free (rooted.nodes id node found).2
    · by_contra present
      obtain ⟨record, found⟩ := Option.ne_none_iff_exists'.mp present
      exact free (rooted.records id record found).1
    · by_contra present
      obtain ⟨recorded, found⟩ := Option.ne_none_iff_exists'.mp present
      exact free (rooted.reserved (id, ordinal) recorded found)
  have local_ : ∀ entry ∈ prepared.localNodes.toList,
      entry.1 ∈ prepared.localNodes.keys ++ prepared.nested.keys := by
    intro entry member
    apply List.mem_append_left
    rw [← keys]
    exact List.mem_map_of_mem member
  obtain ⟨rooted'', structured, recorded⟩ := materializeNodes_tallied tallies rooted'
    (by rw [keys]; exact ExtTreeMap.nodup_keys)
    (fun entry member => nested.ids _ (reserved _ (local_ entry member)).2)
    (fun entry member => (nested.kept (reserved _ (local_ entry member)).2).trans
      (unborn _ (local_ entry member)).1)
    (fun entry member ordinal =>
      (nested.keys (entry.1, ordinal) (reserved _ (local_ entry member)).2 not_false).trans
        ((unborn _ (local_ entry member)).2.2 ordinal)) folded
  refine ⟨rooted'', ?_, ?_, recorded⟩
  · rw [keys] at structured
    have early := (Tallied.of_adds adds).trans
      (@Tallied.weaken _ _ _ _ _ _ _ _ _ _ _ (· ∈ prepared.localNodes.keys) nested
        (fun _ => False.elim) rfl rfl
        (fun _ => rfl) fun _ => Iff.rfl)
    refine (early.trans structured).weaken (fun _ owned => owned) ?_ rfl (fun _ => rfl) ?_
    · rfl
    · intro node
      simp [Deeper]
  · intro id member
    obtain ⟨free, taken⟩ := reserved id member
    have taken' := nested.ids id taken
    refine ⟨free, taken, structured.ids id taken', ?_, ?_⟩
    · rw [structured.kept taken', nested.kept taken]
      exact (unborn id member).1
    · rw [structured.records id taken', nested.records id taken]
      exact (unborn id member).2.1

/-- The tables behind the boundaries and the installation of a scope. -/
structure Completed (localNodes : NodeMap (FlowNode FlowGraph)) (middle after : AdvancedCompiler)
    (owners : List NodeId) (transitions : Nat) : Prop where
  ids : after.allIds = middle.allIds
  branches : after.splitBranchScopes = middle.splitBranchScopes
  materialized : after.materialized = middle.materialized
  declared : after.declaredTransitions = middle.declaredTransitions
  registered : ∀ id, after.registered id = middle.registered id
  within : middle.Within → after.Within
  placed : after.placed = middle.placed + owners.length + localNodes.size +
    Tables.total FlowNode.embedded localNodes
  connected : after.connected = middle.connected + transitions
  repeated : ∀ id, after.repeated id = middle.repeated id +
    Tables.total (fun node => node.repeatIds.count id) localNodes
  records : ∀ id : NodeId, after.nestedRecords[id]? ≠ none →
    id ∈ owners ∨ middle.nestedRecords[id]? ≠ none
  otherRecords : ∀ id : NodeId, id ∉ owners → after.nestedRecords[id]? = middle.nestedRecords[id]?
  localNode : ∀ (id : NodeId) node, localNodes[id]? = some node → after.nodes[id]? = some node
  otherNode : ∀ id : NodeId, localNodes[id]? = none → after.nodes[id]? = middle.nodes[id]?

theorem Completed.of_parts {owners : List (NodeId × CompiledFlowScope)} {outgoing resolved : Edges}
    (bordered : Bordered nestedExits owners middle third)
    (settled : Settled localNodes outgoing third after)
    (installed : Installed localNodes resolved third after)
    (total : Tables.total List.length outgoing +
      (owners.map fun entry => (edgesOf nestedExits entry.1).length).sum = transitions) :
    Completed localNodes middle after (owners.map (·.1)) transitions := by
  have whole : after = { middle with
      nodes := after.nodes, transitions := after.transitions,
      nestedRecords := third.nestedRecords } := by
    rw [settled.rest, bordered.rest]
  have nodes : third.nodes = middle.nodes := by rw [bordered.rest]
  have records : after.nestedRecords = third.nestedRecords := by rw [settled.rest]
  refine
    { ids := by rw [whole]
      branches := by rw [whole]
      materialized := by rw [whole]; rfl
      declared := by rw [whole]
      registered := fun id => by rw [whole]; rfl
      within := ?_
      placed := ?_
      connected := ?_
      repeated := ?_
      records := fun id => by rw [records]; exact bordered.records id
      otherRecords := fun id => by rw [records]; exact bordered.others id
      localNode := installed.localNode
      otherNode := fun id absent => by rw [installed.otherNode id absent, nodes] }
  · intro within
    rw [whole]
    exact ⟨within.nodes, within.transitions, within.components, within.keyed⟩
  · have size := bordered.size
    have added := settled.nodes fun node => 1 + node.embedded
    have split : Tables.total (fun node : FlowNode FlowGraph => 1 + node.embedded) localNodes =
        localNodes.size + Tables.total FlowNode.embedded localNodes := by
      rw [Tables.total_add, Tables.total_one]
    unfold AdvancedCompiler.placed
    rw [records, added, nodes, size, split, List.length_map]
    omega
  · have edges := bordered.edges
    have more := settled.edges
    have exits := bordered.exits
    unfold AdvancedCompiler.connected
    rw [records, more, edges, exits, ← total]
    omega
  · intro id
    unfold AdvancedCompiler.repeated
    rw [settled.nodes, nodes]

private theorem count_flatMap_total (localNodes : NodeMap (FlowNode FlowGraph)) (id : RepeatId) :
    (localNodes.values.flatMap (·.repeatIds)).count id =
      Tables.total (fun node => node.repeatIds.count id) localNodes := by
  rw [Tables.total, Tables.values_eq, List.count_flatMap, List.map_map]
  rfl

theorem Stages.owners (stages : Stages descend graph before first second middle third fourth after
      prepared nestedScopes partitions nestedExits scope) :
    nestedScopes.toList.map (·.1) = prepared.nested.keys := by
  have alike : MapLike (fun _ _ => True) nestedScopes prepared.nested := by
    intro id
    have same := compileNestedScopes_keys stages.nesting id
    rw [ExtTreeMap.contains_eq_isSome_getElem?, ExtTreeMap.contains_eq_isSome_getElem?] at same
    cases here : nestedScopes[id]? with
    | none =>
      rw [here] at same
      rw [Option.isNone_iff_eq_none.mp (Option.isSome_eq_false_iff.mp same.symm)]
      exact .none
    | some inner =>
      rw [here] at same
      obtain ⟨declared, found⟩ := Option.isSome_iff_exists.mp same.symm
      rw [found]
      exact .some trivial
  rw [← alike.keys]
  exact ExtTreeMap.map_fst_toList_eq_keys

theorem Stages.completed (tallies : Tallies descend) (rooted : Rooted before)
    (stages : Stages descend graph before first second middle third fourth after prepared
      nestedScopes partitions nestedExits scope) :
    Completed prepared.localNodes middle after prepared.nested.keys graph.transitions.length := by
  obtain ⟨_, _, unborn, _⟩ := stages.inner_tallied tallies rooted
  have transitions : prepared.transitions = graph.transitions :=
    (prepareScope_prepared stages.preparing).1.transitions
  have owner : ∀ entry ∈ nestedScopes.toList, entry.1 ∈ prepared.nested.keys := by
    intro entry member
    rw [← stages.owners]
    exact List.mem_map_of_mem member
  have bordered := normalizeNestedBoundaries_bordered
    (by rw [ExtTreeMap.map_fst_toList_eq_keys]; exact ExtTreeMap.nodup_keys)
    (fun entry member =>
      (unborn entry.1 (List.mem_append_right _ (owner entry member))).2.2.2.2) stages.normalizing
  rw [← stages.owners]
  refine Completed.of_parts bordered (install_settled stages.installing stages.connecting)
    (install_installed stages.installing stages.connecting) ?_
  rw [exits_total stages.partitioning stages.sorting, ← transitions]
  exact partitionTransitions_total stages.partitioning

theorem mem_keys_of_lookup {id : NodeId} {held : NodeMap Value} (found : held[id]? = some value) :
    id ∈ held.keys := by
  rw [ExtTreeMap.mem_keys]
  exact Tables.mem_of_lookup found

theorem Stages.rooted (tallies : Tallies descend) (rooted : Rooted before)
    (stages : Stages descend graph before first second middle third fourth after prepared
      nestedScopes partitions nestedExits scope) : Rooted after := by
  obtain ⟨rooted', _, unborn, recorded⟩ := stages.inner_tallied tallies rooted
  have completed := stages.completed tallies rooted
  obtain ⟨_, gathered⟩ := adds_prepareScope stages.preparing
  obtain ⟨ready, _, _⟩ := prepareScope_prepared stages.preparing
  have settled : ∀ id : NodeId, middle.nestedRecords[id]? ≠ none →
      prepared.localNodes[id]? = none := by
    intro id present
    cases here : prepared.localNodes[id]? with
    | none => rfl
    | some node =>
      have free := unborn id (List.mem_append_left _ (mem_keys_of_lookup here))
      exact absurd free.2.2.2.2 present
  refine ⟨completed.within rooted'.within, ?_, ?_, ?_, ?_⟩
  · intro key inner found
    rw [completed.branches] at found
    rw [completed.ids]
    exact rooted'.reserved key inner found
  · intro id node found
    rw [completed.ids]
    cases here : prepared.localNodes[id]? with
    | none =>
      rw [completed.otherNode id here] at found
      exact rooted'.nodes id node found
    | some own =>
      rw [completed.localNode id own here] at found
      cases found
      have free := unborn id (List.mem_append_left _ (mem_keys_of_lookup here))
      exact ⟨((gathered.nodes id _).mp here).2, free.2.2.1⟩
  · intro owner record found
    rw [completed.ids]
    rcases completed.records owner (by rw [found]; simp) with nested | old
    · have free := unborn owner (List.mem_append_right _ nested)
      have foreign : prepared.localNodes[owner]? = none := by
        have apart := ready.apart owner (by simpa using nested)
        exact ExtTreeMap.getElem?_eq_none_of_contains_eq_false apart
      rw [completed.otherNode owner foreign]
      exact ⟨free.2.2.1, free.2.2.2.1⟩
    · obtain ⟨earlier, present⟩ := Option.ne_none_iff_exists'.mp old
      rw [completed.otherNode owner (settled owner old)]
      exact rooted'.records owner earlier present
  · intro id split found
    rw [completed.branches]
    cases here : prepared.localNodes[id]? with
    | none =>
      rw [completed.otherNode id here] at found
      exact rooted'.branches id split found
    | some own =>
      rw [completed.localNode id own here] at found
      cases found
      exact recorded (id, .split split) (ExtTreeMap.mem_toList_iff_getElem?_eq_some.mpr here) split rfl

theorem Stages.tallied (tallies : Tallies descend) (rooted : Rooted before)
    (stages : Stages descend graph before first second middle third fourth after prepared
      nestedScopes partitions nestedExits scope) :
    Tallied (fun _ => False) 0 0 (fun _ => 0) (Declares graph) before after := by
  obtain ⟨_, tallied, unborn, _⟩ := stages.inner_tallied tallies rooted
  have completed := stages.completed tallies rooted
  obtain ⟨_, gathered⟩ := adds_prepareScope stages.preparing
  have own : ∀ node ∈ graph.nodes, prepared.localNodes[node.id]? = some node :=
    fun node member => (gathered.nodes node.id node).mpr ⟨member, rfl⟩
  refine ⟨?_, ?_, ?_, ?_, ?_, ?_, ?_, ?_⟩
  · intro id member
    rw [completed.ids]
    exact tallied.ids id member
  · intro id node
    rw [gathered.declares]
    cases here : prepared.localNodes[id]? with
    | none =>
      rw [completed.otherNode id here, tallied.nodes]
      refine or_congr Iff.rfl (and_congr_left ?_)
      rintro rfl
      refine ⟨.inr, ?_⟩
      rintro (member | deeper)
      · rw [own node member] at here
        cases here
      · exact deeper
    | some held =>
      have free := unborn id (List.mem_append_left _ (mem_keys_of_lookup here))
      rw [completed.localNode id held here, Option.some.injEq]
      constructor
      · rintro rfl
        obtain ⟨member, same⟩ := (gathered.nodes id held).mp here
        exact .inr ⟨.inl member, same⟩
      · rintro (old | ⟨member | deeper, rfl⟩)
        · exact absurd (rooted.nodes id node old).2 free.1
        · rw [own node member] at here
          exact (Option.some.inj here).symm
        · have installed := (tallied.nodes node.id node).mpr (.inr ⟨deeper, rfl⟩)
          rw [free.2.2.2.1] at installed
          cases installed
  · intro node declares
    rw [completed.ids]
    rcases (gathered.declares node).mp declares with member | deeper
    · have free := unborn node.id (List.mem_append_left _ (mem_keys_of_lookup (own node member)))
      exact ⟨free.1, free.2.2.1⟩
    · exact tallied.fresh node deeper
  · intro id member
    rw [completed.otherRecords id, tallied.records id member]
    intro nested
    exact (unborn id (List.mem_append_right _ nested)).1 member
  · intro key member _
    rw [completed.branches]
    apply tallied.keys key member
    intro nested
    exact (unborn key.1 (List.mem_append_left _ nested)).1 member
  · have balance := tallied.places
    have places := completed.placed
    rw [ExtTreeMap.length_keys] at places
    rw [completed.materialized, places]
    omega
  · have balance := tallied.edges
    rw [completed.declared, completed.connected]
    omega
  · intro id
    have balance := tallied.repeats id
    rw [completed.registered, completed.repeated, ← count_flatMap_total]
    omega

theorem compileScope_tallies (levels : Nat) : Tallies (compileScope levels) := by
  induction levels with
  | zero =>
    intro graph before scope after _ yields
    cases yields
  | succ levels ih =>
    intro graph before scope after rooted yields
    obtain ⟨_, _, _, _, _, _, _, _, _, stages⟩ := compileScopeWith_stages yields
    exact ⟨stages.rooted ih rooted, stages.tallied ih rooted⟩

theorem Rooted.default : Rooted .default := by
  refine ⟨⟨by decide, by decide, ?_, ?_⟩, ?_, ?_, ?_, ?_⟩
  · intro scope
    have none : AdvancedCompiler.default.scopedComponents.keys = [] := by
      rw [← List.isEmpty_iff, ExtTreeMap.isEmpty_keys]
      rfl
    rw [none]
    exact Nat.zero_le _
  · intro key component found
    simp [AdvancedCompiler.default] at found
  · intro key scope found
    simp [AdvancedCompiler.default] at found
  · intro id node found
    simp [AdvancedCompiler.default] at found
  · intro owner record found
    simp [AdvancedCompiler.default] at found
  · intro id split found
    simp [AdvancedCompiler.default] at found

end Compile

end OxideBatch.Plan
