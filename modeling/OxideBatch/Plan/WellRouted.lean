import OxideBatch.Plan.Scopes

/-! Every plan that compiles ends on every walk: its scopes divide its nodes, and no
scope loops, dangles, or lets a join be entered past its split. -/

namespace OxideBatch.Plan

open OxideBatch.Core Program Relation
open Std (ExtTreeMap ExtTreeSet)

section Statement

variable (plan : CompiledExecutionPlan Definition)

/-- The root scope and the scopes of the flow branches of splits. -/
def CompiledExecutionPlan.scopes : List CompiledFlowScope :=
  plan.rootScope :: plan.splitBranchScopes.values

def CompiledExecutionPlan.nodeCount : Nat := plan.nodes.size

/-- One move of a walk: along a transition, or from a split to its join. -/
def CompiledExecutionPlan.Moves (source target : NodeId) : Prop :=
  Follows plan.nodes plan.transitions source target

/-- A plan without dead ends and loops. -/
structure WellRouted : Prop where
  target : ∀ (source : NodeId) edges, plan.transitions[source]? = some edges →
    ∀ edge ∈ edges, ∀ target, edge.target = .node target →
      plan.nodes.contains target = true ∧
        ∃ scope ∈ plan.scopes, source ∈ scope.members ∧ target ∈ scope.members
  reached : ∀ scope ∈ plan.scopes ++ plan.nestedScopes.values, ∀ id ∈ scope.members,
    ReflTransGen plan.Moves scope.entry id
  ends : ∀ scope ∈ plan.scopes, ∀ walk, List.IsChain plan.Moves (scope.entry :: walk) →
    (scope.entry :: walk).Nodup ∧ (scope.entry :: walk).length ≤ plan.nodeCount
  joined : ∀ join, IsJoin plan.nodes join → ∃ split, Splits plan.nodes split join ∧
    (∀ source, plan.Moves source join → source = split) ∧
    ∀ scope ∈ plan.scopes, scope.entry ≠ join
  divided : ∀ id, plan.scopes.countP (·.members.contains id) =
    if plan.nodes.contains id then 1 else 0

end Statement

section Divided

variable {plan : CompiledExecutionPlan Definition}

private theorem eq_of_countP_eq_one {holds : α → Bool} {values : List α} {first second : α}
    (one : values.countP holds = 1) (inFirst : first ∈ values) (inSecond : second ∈ values)
    (holdsFirst : holds first = true) (holdsSecond : holds second = true) : first = second := by
  rw [List.countP_eq_length_filter] at one
  obtain ⟨only, same⟩ := List.length_eq_one_iff.mp one
  have left := List.mem_filter.mpr ⟨inFirst, holdsFirst⟩
  have right := List.mem_filter.mpr ⟨inSecond, holdsSecond⟩
  rw [same] at left right
  rw [List.mem_singleton.mp left, List.mem_singleton.mp right]

/-- Sound scopes that divide the nodes make a plan without dead ends and loops. -/
theorem WellRouted.of_scopes
    (sound : ∀ scope ∈ plan.scopes, ScopeSound plan.nodes plan.transitions scope)
    (divided : ∀ id, plan.scopes.countP (·.members.contains id) =
      if plan.nodes.contains id then 1 else 0)
    (grounded : ∀ id : NodeId, plan.nodes[id]? = none → plan.transitions[id]? = none)
    (nested : ∀ scope ∈ plan.nestedScopes.values, ∀ id ∈ scope.members,
      ReflTransGen plan.Moves scope.entry id) : WellRouted plan := by
  have scopeOf : ∀ id : NodeId, plan.nodes[id]? ≠ none →
      ∃ scope ∈ plan.scopes, id ∈ scope.members := by
    intro id installed
    have one := divided id
    have contained : plan.nodes.contains id = true := by
      rw [ExtTreeMap.contains_eq_isSome_getElem?]
      exact Option.isSome_iff_ne_none.mpr installed
    rw [contained, if_pos rfl] at one
    have covered : 0 < plan.scopes.countP (·.members.contains id) := by omega
    obtain ⟨scope, member, holds⟩ := List.countP_pos_iff.mp covered
    exact ⟨scope, member, by simpa using holds⟩
  have same : ∀ id, ∀ first ∈ plan.scopes, ∀ second ∈ plan.scopes, id ∈ first.members →
      id ∈ second.members → first = second := by
    intro id first inFirst second inSecond holdsFirst holdsSecond
    have one := divided id
    have contained : plan.nodes.contains id = true := by
      rw [ExtTreeMap.contains_eq_isSome_getElem?]
      exact Option.isSome_iff_ne_none.mpr ((sound first inFirst).installed id holdsFirst)
    rw [contained, if_pos rfl] at one
    exact eq_of_countP_eq_one one inFirst inSecond (by simpa using holdsFirst)
      (by simpa using holdsSecond)
  have source : ∀ id target, plan.Moves id target → plan.nodes[id]? ≠ none := by
    intro id target moves absent
    rcases moves with splits | ⟨edge, held, _⟩
    · rw [Splits, absent] at splits
      cases splits
    · rw [edgesOf, grounded id absent] at held
      cases held
  refine ⟨?_, ?_, ?_, ?_, divided⟩
  · intro id edges found edge held target leads
    have moves : plan.Moves id target := .inr ⟨edge, by rw [edgesOf, found]; exact held, leads⟩
    obtain ⟨scope, member, inside⟩ := scopeOf id (source id target moves)
    have arrived := (sound scope member).closed id inside target moves
    refine ⟨?_, scope, member, inside, arrived⟩
    rw [ExtTreeMap.contains_eq_isSome_getElem?]
    exact Option.isSome_iff_ne_none.mpr ((sound scope member).installed target arrived)
  · intro scope member
    rcases List.mem_append.mp member with own | inner
    · exact (sound scope own).reached
    · exact nested scope inner
  · intro scope member walk chain
    refine ⟨DepthFirst.nodup_of_acc (sound scope member).finite chain, ?_⟩
    have inside : ∀ id ∈ scope.entry :: walk, id ∈ scope.members := by
      intro id visited
      apply List.IsChain.induction (· ∈ scope.members) _ chain
      · exact fun _ _ moves here => (sound scope member).closed _ here _ moves
      · exact fun _ => (sound scope member).entry
      · exact visited
    have among : (scope.entry :: walk) ⊆ plan.nodes.keys := by
      intro id visited
      rw [ExtTreeMap.mem_keys, ExtTreeMap.mem_iff_isSome_getElem?]
      exact Option.isSome_iff_ne_none.mpr ((sound scope member).installed id (inside id visited))
    have few := List.subperm_of_subset
      (DepthFirst.nodup_of_acc (sound scope member).finite chain) among
    rw [CompiledExecutionPlan.nodeCount, ← ExtTreeMap.length_keys]
    exact few.length_le
  · intro join joins
    have installed : plan.nodes[join]? ≠ none := by
      intro absent
      rw [IsJoin, absent] at joins
      cases joins
    obtain ⟨scope, member, inside⟩ := scopeOf join installed
    obtain ⟨split, isSplit, splits, only⟩ := (sound scope member).owned join inside joins
    refine ⟨split, splits, ?_, ?_⟩
    · intro id moves
      obtain ⟨home, isHome, here⟩ := scopeOf id (source id join moves)
      have arrived := (sound home isHome).closed id here join moves
      obtain rfl := same join scope member home isHome inside arrived
      rcases moves with splits' | ⟨edge, held, leads⟩
      · exact only id here splits'
      · exact absurd joins ((sound scope member).entered id here edge held join leads)
    · intro other isOther entry
      rw [← entry] at joins
      exact (sound other isOther).entry_not_join joins

end Divided

section Advanced

theorem Mapped.default : Mapped .default := by
  refine ⟨fun _ _ => by simp [AdvancedCompiler.default], ?_, ?_, ?_⟩
  · intro key scope found
    simp [AdvancedCompiler.default] at found
  · intro key scope found
    simp [AdvancedCompiler.default] at found
  · intro owner record found
    simp [AdvancedCompiler.default] at found

theorem mem_values {Key Value : Type} [Ord Key] [Std.TransOrd Key] [Std.LawfulEqOrd Key]
    {table : ExtTreeMap Key Value} {value : Value} (member : value ∈ table.values) :
    ∃ key : Key, table[key]? = some value := by
  rw [Tables.values_eq] at member
  obtain ⟨entry, present, rfl⟩ := List.mem_map.mp member
  exact ⟨entry.1, ExtTreeMap.mem_toList_iff_getElem?_eq_some.mp present⟩

private theorem compile_wellRouted {identify : AdvancedCompiler → CompiledFlowScope →
      Option ParameterIncrementerIdentity → Except PlanError Definition}
    (compiled : compile identify graph = .ok plan) : WellRouted plan := by
  obtain ⟨⟨scope, compiler⟩, built, identifying⟩ := bind_eq_ok compiled
  obtain ⟨definition, _, ending⟩ := bind_eq_ok identifying
  cases ending
  obtain ⟨mapped, charted, sound⟩ := compileScope_charts _ graph _ scope compiler .default built
  apply WellRouted.of_scopes
  · intro other member
    rcases List.mem_cons.mp member with rfl | branch
    · exact sound
    · obtain ⟨key, found⟩ := mem_values branch
      exact mapped.sound key other found
  · intro id
    have balance := charted.balance id
    have absent : AdvancedCompiler.default.nodes[id]? = none := by simp [AdvancedCompiler.default]
    rw [installs_eq_zero absent, Mapped.default.covering_eq_zero absent] at balance
    have branches : compiler.splitBranchScopes.values.countP (·.members.contains id) =
        covering compiler.splitBranchScopes id := by
      rw [Tables.values_eq, List.countP_map]
      rfl
    rw [CompiledExecutionPlan.scopes, List.countP_cons, branches]
    have rooted : (if scope.members.contains id = true then 1 else 0) = scope.holds id := rfl
    have installs : compiler.installs id = if compiler.nodes.contains id then 1 else 0 := rfl
    rw [rooted, ← installs]
    omega
  · exact mapped.grounded
  · intro inner member id inside
    obtain ⟨owner, found⟩ := mem_values member
    rw [ExtTreeMap.getElem?_map] at found
    obtain ⟨record, held, rfl⟩ := Option.map_eq_some_iff.mp found
    exact (mapped.nested owner record held id inside).2

end Advanced

section Base

/-- The stages of the base path. -/
structure BaseStages (serde : Serde) (jobName : JobName) (revision : DefinitionRevision)
    (graph : FlowGraph) (entry : NodeId) (nodes : NodeMap (FlowNode FlowGraph)) (localScale : Bool)
    (outgoing : Edges) (definition : DefinitionIdentity) : Prop where
  entered : graph.entry = some entry
  fewNodes : graph.nodes.length ≤ maxNodes
  fewTransitions : graph.transitions.length ≤ maxTransitions
  collected : collectNodes graph.nodes = .ok nodes
  declared : nodes.contains entry = true
  scaled : checkLocalScaleSubset entry nodes = .ok localScale
  connected : graph.transitions.foldlM (connect nodes) ∅ = .ok outgoing
  checked : nodes.toList.forM (checkOutgoing outgoing) = .ok ()
  searched : checkReachableAndAcyclic entry nodes (outgoing.map fun _ edges => sortTransitions edges) =
    .ok ()
  identified : identifyManifest serde jobName revision (flowManifest jobName entry nodes
    (outgoing.map fun _ edges => sortTransitions edges) localScale) = .ok definition

theorem compileBase_stages (compiled : compileBase serde jobName revision graph = .ok plan) :
    ∃ entry nodes localScale outgoing definition,
      BaseStages serde jobName revision graph entry nodes localScale outgoing definition ∧
      plan = basePlan definition entry nodes (outgoing.map fun _ edges => sortTransitions edges) := by
  unfold compileBase compileBaseUnder at compiled
  cases entered : graph.entry with
  | none =>
    rw [entered] at compiled
    cases compiled
  | some entry =>
    rw [entered] at compiled
    dsimp only at compiled
    split at compiled
    · cases compiled
    · rename_i fewNodes
      split at compiled
      · cases compiled
      · rename_i fewTransitions
        obtain ⟨nodes, collected, toDeclare⟩ := bind_eq_ok compiled
        split at toDeclare
        · cases toDeclare
        · rename_i declared
          obtain ⟨localScale, scaled, toConnect⟩ := bind_eq_ok toDeclare
          obtain ⟨outgoing, connected, toCheck⟩ := bind_eq_ok toConnect
          obtain ⟨_, checked, toSearch⟩ := bind_eq_ok toCheck
          obtain ⟨_, searched, toIdentify⟩ := bind_eq_ok toSearch
          obtain ⟨definition, identified, ending⟩ := bind_eq_ok toIdentify
          cases ending
          refine ⟨entry, nodes, localScale, outgoing, definition, ?_, rfl⟩
          exact ⟨entered, by omega, by omega, collected, by simpa using declared, scaled,
            connected, checked, searched, identified⟩

/-- Connecting declared transitions is partitioning them with no nested scope. -/
theorem connect_partition {transitions : List FlowTransition} {nodes : NodeMap (FlowNode FlowGraph)}
    (connected : transitions.foldlM (connect nodes) held = .ok outgoing) :
    transitions.foldlM (partitionTransition nodes ∅) (held, ∅) = .ok (outgoing, ∅) := by
  induction transitions generalizing held with
  | nil =>
    cases connected
    rfl
  | cons transition transitions ih =>
    rw [List.foldlM_cons] at connected ⊢
    obtain ⟨middle, first, rest⟩ := bind_eq_ok connected
    obtain ⟨_, valid, pushed⟩ := bind_eq_ok first
    apply bind_ok.mpr
    refine ⟨(middle, ∅), ?_, ih rest⟩
    simp only [partitionTransition, ExtTreeMap.contains_empty, Bool.false_eq_true, if_false, bind_ok]
    exact ⟨(), valid, middle, pushed, rfl⟩

private theorem checkSplit_accepted {id : NodeId}
    (checked : checkSplit entry nodes held id split = .ok held') :
    SplitAccepted entry id split nodes held.joinOwners ∧
      held'.joinOwners = held.joinOwners.insert split.join id := by
  unfold checkSplit at checked
  split at checked
  · cases checked
  · rename_i inner
    split at checked
    · cases checked
    · rename_i count
      split at checked
      · cases checked
      · split at checked
        · cases checked
        · rename_i joined
          have join : ∃ join, nodes[split.join]? = some join ∧ join.isJoin = true := by
            simpa [Option.any_eq_true] using joined
          cases owned : held.joinOwners[split.join]? with
          | some first =>
            rw [owned] at checked
            cases checked
          | none =>
            rw [owned] at checked
            obtain ⟨embedded, _, ending⟩ := bind_eq_ok checked
            cases ending
            exact ⟨⟨inner, by omega, by omega, join, owned⟩, rfl⟩

/-- A node of a base flow: its join is declared and taken by it alone. -/
private theorem checkLocalNode_owning {declared : NodeId × FlowNode FlowGraph}
    (checked : checkLocalNode entry nodes held declared = .ok held') :
    Owning declared held.joinOwners held'.joinOwners ∧ ∀ join, declared.2.splitJoin? = some join →
      ∃ node, nodes[join]? = some node ∧ node.isJoin = true := by
  obtain ⟨source, node⟩ := declared
  have single : node.splitJoin? = none → held'.joinOwners = held.joinOwners →
      Owning (source, node) held.joinOwners held'.joinOwners ∧ ∀ join, node.splitJoin? = some join →
        ∃ other, nodes[join]? = some other ∧ other.isJoin = true := by
    intro none same
    refine ⟨⟨?_, fun _ => same⟩, ?_⟩
    · intro join splits
      rw [none] at splits
      cases splits
    · intro join splits
      rw [none] at splits
      cases splits
  cases node with
  | split split =>
    obtain ⟨accepted, taken⟩ := checkSplit_accepted checked
    refine ⟨⟨?_, fun none => by cases none⟩, ?_⟩
    · intro join same
      cases same
      exact ⟨accepted.unowned, taken⟩
    · intro join same
      cases same
      exact accepted.join
  | partitionedStep node =>
    obtain ⟨embedded, _, ending⟩ := bind_eq_ok checked
    cases ending
    exact single rfl rfl
  | step _ | decision _ | nestedJob _ | customLeaf _ | join _ =>
    cases checked
    exact single rfl rfl

private theorem checkLocalNodes_owning {entries : List (NodeId × FlowNode FlowGraph)}
    (checked : entries.foldlM (checkLocalNode entry nodes) held = .ok held') :
    OwningAll entries held.joinOwners held'.joinOwners ∧ ∀ declared ∈ entries, ∀ join,
      declared.2.splitJoin? = some join → ∃ node, nodes[join]? = some node ∧ node.isJoin = true := by
  induction entries generalizing held with
  | nil =>
    cases checked
    exact ⟨.nil, by simp⟩
  | cons declared entries ih =>
    rw [List.foldlM_cons] at checked
    obtain ⟨middle, first, rest⟩ := bind_eq_ok checked
    obtain ⟨owning, joined⟩ := checkLocalNode_owning first
    obtain ⟨later, joined'⟩ := ih rest
    refine ⟨.cons owning later, ?_⟩
    intro other member
    rcases List.mem_cons.mp member with rfl | old
    · exact joined
    · exact joined' other old

private theorem checkLocalScaleSubset_owned
    (checked : checkLocalScaleSubset entry nodes = .ok localScale) :
    JoinsOwned nodes ∧ ∀ (split : NodeId) node join, nodes[split]? = some node →
      node.splitJoin? = some join → ∃ other, nodes[join]? = some other ∧ other.isJoin = true := by
  obtain ⟨held, folded, ending⟩ := bind_eq_ok checked
  obtain ⟨owning, joined⟩ := checkLocalNodes_owning folded
  split at ending
  · cases ending
  · cases orphan : nodes.toList.find? fun declared =>
        declared.2.isJoin && !held.joinOwners.contains declared.1 with
    | some declared =>
      rw [orphan] at ending
      cases ending
    | none =>
      refine ⟨owning.joinsOwned ?_, ?_⟩
      · intro declared member joins
        have owned := List.find?_eq_none.mp orphan declared member
        simpa [joins] using owned
      · intro split node join found
        exact joined (split, node) (ExtTreeMap.mem_toList_iff_getElem?_eq_some.mpr found) join

private theorem leads_expandFlow {source target : NodeId} :
    DepthFirst.Leads (expandFlow nodes transitions) target source ↔
      Follows nodes transitions source target := by
  unfold DepthFirst.Leads expandFlow
  simp only [Except.ok.injEq, exists_eq_left', List.mem_append, Option.mem_toList]
  refine or_congr Iff.rfl ?_
  simp only [List.mem_filterMap]
  refine exists_congr fun edge => and_congr Iff.rfl ?_
  cases edge.target with
  | node id => simp
  | terminal kind => simp

private theorem checkReachableAndAcyclic_routes {nodes : NodeMap (FlowNode FlowGraph)}
    (searched : checkReachableAndAcyclic entry nodes transitions = .ok ()) :
    (∀ id ∈ nodes.keys, ReflTransGen (Follows nodes transitions) entry id) ∧
      Acc (fun target source => Follows nodes transitions source target) entry := by
  obtain ⟨visited, found, ending⟩ := bind_eq_ok searched
  constructor
  · intro id member
    split at ending
    · cases ending
    · rename_i all
      have seen : id ∈ visited := by
        have missed := List.find?_eq_none.mp all id member
        simpa using missed
      apply ReflTransGen.mono ?_ _ _ (DepthFirst.reached_of_visit found id seen)
      exact fun _ _ leads => leads_expandFlow.mp leads
  · have finite := DepthFirst.acc_of_visit found
    apply Subrelation.accessible ?_ finite
    exact fun {_ _} moves => leads_expandFlow.mpr moves

theorem BaseStages.isSound (stages : BaseStages serde jobName revision graph entry nodes localScale
      outgoing definition) :
    ScopeSound nodes (outgoing.map fun _ edges => sortTransitions edges)
      ⟨entry, ExtTreeSet.ofList nodes.keys⟩ := by
  obtain ⟨owned, joined⟩ := checkLocalScaleSubset_owned stages.scaled
  obtain ⟨reached, finite⟩ := checkReachableAndAcyclic_routes stages.searched
  have partitioned := partitionTransitions_partitioned (connect_partition stages.connected)
  have member : ∀ id, id ∈ ExtTreeSet.ofList nodes.keys ↔ nodes[id]? ≠ none := by
    intro id
    rw [ExtTreeSet.mem_ofList, List.contains_iff_mem, ExtTreeMap.mem_keys,
      ExtTreeMap.mem_iff_isSome_getElem?, Option.isSome_iff_ne_none]
  have declaredEdge : ∀ source, ∀ edge ∈ edgesOf
      (outgoing.map fun _ edges => sortTransitions edges) source,
      edge ∈ graph.transitions ∧ edge.source = source := by
    intro source edge held
    rw [edgesOf, ExtTreeMap.getElem?_map] at held
    have filtered := partitioned.outgoing source (by simp)
    cases found : outgoing[source]? with
    | none =>
      rw [found] at held
      cases held
    | some edges =>
      rw [found] at held
      have present := (sortTransitions_perm _).mem_iff.mp held
      rw [edgesOf, found, Option.getD_some] at filtered
      rw [filtered] at present
      obtain ⟨declared, same⟩ := List.mem_filter.mp present
      exact ⟨declared, by simpa using same⟩
  have declaredTarget : ∀ edge ∈ graph.transitions, ∀ target, edge.target = .node target →
      nodes[target]? ≠ none := by
    intro edge declared target leads
    have known := validateTransition_target (partitioned.valid edge declared) leads
    rw [ExtTreeMap.contains_empty, ExtTreeMap.contains_eq_isSome_getElem?] at known
    exact Option.isSome_iff_ne_none.mp (by simpa using known)
  refine ⟨?_, ?_, ?_, ?_, finite, ?_, ?_, ?_, ?_⟩
  · rw [member, ← Option.isSome_iff_ne_none, ← ExtTreeMap.contains_eq_isSome_getElem?]
    exact stages.declared
  · exact fun id inside => (member id).mp inside
  · intro source _ target moves
    apply (member target).mpr
    rcases moves with splits | ⟨edge, held, leads⟩
    · obtain ⟨node, found, same⟩ := Option.bind_eq_some_iff.mp splits
      obtain ⟨other, present, _⟩ := joined source node target found same
      rw [present]
      simp
    · exact declaredTarget edge (declaredEdge source edge held).1 target leads
  · intro id inside
    apply reached
    rw [ExtTreeMap.mem_keys, ExtTreeMap.mem_iff_isSome_getElem?]
    exact Option.isSome_iff_ne_none.mpr ((member id).mp inside)
  · intro split _ join splits
    apply List.eq_nil_iff_forall_not_mem.mpr
    intro edge held
    obtain ⟨declared, rfl⟩ := declaredEdge split edge held
    have single := Assembled.validateTransition_bare (partitioned.valid edge declared)
    rw [Splits, single] at splits
    cases splits
  · intro split _ join splits
    obtain ⟨node, found, same⟩ := Option.bind_eq_some_iff.mp splits
    obtain ⟨other, present, joins⟩ := joined split node join found same
    rw [IsJoin, present]
    exact joins
  · intro join inside joins
    obtain ⟨node, found⟩ := Option.ne_none_iff_exists'.mp ((member join).mp inside)
    rw [IsJoin, found] at joins
    obtain ⟨split, owner, declared, splits⟩ := owned.owned join node found joins
    refine ⟨split, (member split).mpr (by rw [declared]; simp), ?_, ?_⟩
    · rw [Splits, declared]
      exact splits
    · intro other _ splits'
      obtain ⟨otherNode, present, same⟩ := Option.bind_eq_some_iff.mp splits'
      exact owned.unique other split otherNode owner join present declared same splits
  · intro source _ edge held target leads
    exact Assembled.validateTransition_join
      (partitioned.valid edge (declaredEdge source edge held).1) leads

private theorem compileBase_wellRouted
    (compiled : compileBase serde jobName revision graph = .ok plan) :
    WellRouted plan := by
  obtain ⟨entry, nodes, localScale, outgoing, definition, stages, rfl⟩ :=
    compileBase_stages compiled
  have partitioned := partitionTransitions_partitioned (connect_partition stages.connected)
  apply WellRouted.of_scopes
  · intro scope member
    rcases List.mem_cons.mp member with rfl | branch
    · exact stages.isSound
    · obtain ⟨key, found⟩ := mem_values branch
      simp [basePlan] at found
  · intro id
    have branches : (basePlan definition entry nodes
        (outgoing.map fun _ edges => sortTransitions edges)).splitBranchScopes.values = [] := by
      rw [Tables.values_eq]
      simp [basePlan]
    rw [CompiledExecutionPlan.scopes, branches, List.countP_cons, List.countP_nil]
    simp [basePlan]
  · intro id absent
    have unconnected : outgoing[id]? = none := by
      by_contra present
      have held : outgoing.contains id = true := by
        rw [ExtTreeMap.contains_eq_isSome_getElem?]
        exact Option.isSome_iff_ne_none.mpr present
      have declared := partitioned.owned id held
      rw [ExtTreeMap.contains_eq_isSome_getElem?, show nodes[id]? = none from absent] at declared
      cases declared
    simp [basePlan, unconnected]
  · intro scope member
    obtain ⟨key, found⟩ := mem_values member
    simp [basePlan] at found

end Base

section Main

/-- Plans from `FlowGraph::compile` and from `advanced::compile` cannot loop or dangle:
targets stay in their scope, scopes are reached and repeat nothing, joins are entered
through their split, and the scopes divide the nodes. -/
theorem compiled_plan_wellRouted (serde : Serde) (graph : FlowGraph) (jobName : JobName)
    (revision : DefinitionRevision) (plan : CompiledExecutionPlan DefinitionIdentity)
    (compiled : graph.compile serde jobName revision = .ok plan ∨
      compileAdvanced serde jobName revision graph = .ok plan) : WellRouted plan := by
  rcases compiled with either | advanced
  · unfold FlowGraph.compile FlowGraph.compileUnder at either
    split at either
    · exact compile_wellRouted either
    · exact compileBase_wellRouted either
  · exact compile_wellRouted advanced

/-- A load that fans out into a linear branch and a flow branch. -/
def fanFlow : FlowGraph :=
  let load : NodeId := ⟨"load", Eq.refl true⟩
  let fan : NodeId := ⟨"fan", Eq.refl true⟩
  let left : NodeId := ⟨"left", Eq.refl true⟩
  let right : NodeId := ⟨"right", Eq.refl true⟩
  let merge : NodeId := ⟨"merge", Eq.refl true⟩
  let any : ExitPattern := ⟨"*", Eq.refl true⟩
  let plain : NodeId → StepNode := fun id =>
    { id, stepName := id, components := .tasklet ⟨"v1", Eq.refl true⟩,
      start := ⟨StartLimit.unrestricted, false, .restartable⟩,
      fault := none, listeners := [], repeatDefinition := none }
  let inner : FlowGraph :=
    { entry := some right
      nodes := [.step (plain right)]
      transitions := [⟨right, any, .terminal .complete⟩]
      nestedFlows := []
      scopedComponents := []
      parameterIncrementer := none
      jobRestartPolicy := .restartable }
  { entry := some load
    nodes := [.step (plain load),
      .split ⟨fan, [⟨[plain left], none⟩, ⟨[], some inner⟩], merge, 2, .cancelSiblings⟩,
      .join ⟨merge⟩]
    transitions := [⟨load, any, .node fan⟩, ⟨merge, any, .terminal .complete⟩]
    nestedFlows := []
    scopedComponents := []
    parameterIncrementer := none
    jobRestartPolicy := .restartable }

def fanJob : JobName := ⟨"fan-job", Eq.refl true⟩

def fanManifest : Json :=
  match (compileScope maxFlowCompositionDepth fanFlow).run .default with
  | .ok (scope, compiler) => compiler.manifest fanJob scope none
  | .error _ => .null

/-- The serializer and the digest on the one manifest of the fan-out. -/
def fanSerde : Serde where
  toVec document := some document.toBytes
  fromSlice bytes := if bytes = fanManifest.toBytes then some fanManifest else none
  sha256 bytes :=
    if bytes = fanManifest.toBytes then
      0xaedb1182cf6b2daeffc9313b9c2141505b5d02c153dc51f81ce9efd02c4214cf
    else 0

private theorem fanFlow_compiles :
    (fanFlow.compile fanSerde fanJob ⟨"r1", by decide⟩).isOk = true := by
  decide +kernel

theorem compiled_plan_wellRouted_fanFlow :
    ∃ plan, fanFlow.compile fanSerde fanJob ⟨"r1", by decide⟩ = .ok plan ∧ WellRouted plan := by
  cases compiled : fanFlow.compile fanSerde fanJob ⟨"r1", by decide⟩ with
  | error failure =>
    have accepted := fanFlow_compiles
    rw [compiled] at accepted
    cases accepted
  | ok plan => exact ⟨plan, rfl, compiled_plan_wellRouted _ _ _ _ plan (.inl compiled)⟩

end Main

end OxideBatch.Plan
