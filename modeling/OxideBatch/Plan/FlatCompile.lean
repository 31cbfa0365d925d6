import OxideBatch.Plan.UpgradeNodes

/-! Plans of flat flows, which have neither nested flows nor flow branches: their nodes
are the declared ones, and the steps inside splits and partitions bear identifiers of
their own. A flow that is not flat leaves a record of it in its plan. -/

namespace OxideBatch.Plan

open OxideBatch.Core Program
open Std (ExtTreeMap ExtTreeSet)

/-- The steps inside a node: those of linear branches, and the worker of partitions. -/
def FlowNode.embeddedSteps : FlowNode FlowGraph → List StepNode
  | .split node => node.branches.flatMap (·.declaredSteps)
  | .partitionedStep node => [node.worker]
  | _ => []

def FlowNode.embeddedIds (node : FlowNode FlowGraph) : List NodeId := node.embeddedSteps.map (·.id)

theorem FlowNode.embeddedIds_split (split : SplitNode FlowGraph) :
    (FlowNode.split split).embeddedIds =
      split.branches.flatMap fun branch => branch.declaredSteps.map (·.id) := by
  simp only [embeddedIds, embeddedSteps, List.map_flatMap]

/-- A flow without nested flows and flow branches. -/
def FlowGraph.Flat (graph : FlowGraph) : Prop :=
  graph.nestedFlows = [] ∧ ∀ node ∈ graph.nodes, node.Flat

/-- The embedded steps differ from each other and from the nodes. -/
structure Separate (nodes : NodeMap (FlowNode FlowGraph)) : Prop where
  distinct : (nodes.toList.flatMap (·.2.embeddedIds)).Nodup
  fresh : ∀ id ∈ nodes.toList.flatMap (·.2.embeddedIds), nodes[id]? = none

/-- No two nodes embed the same identifier. -/
theorem Separate.unique {nodes : NodeMap (FlowNode FlowGraph)} (separate : Separate nodes)
    {id first second : NodeId} {node other : FlowNode FlowGraph} (here : nodes[first]? = some node)
    (there : nodes[second]? = some other) (inside : id ∈ node.embeddedIds)
    (inside' : id ∈ other.embeddedIds) : first = second := by
  by_contra different
  have pairwise := (List.nodup_flatMap.mp separate.distinct).2
  have symmetric : Std.Symm (Function.onFun List.Disjoint fun held : NodeId × FlowNode FlowGraph =>
      held.2.embeddedIds) := ⟨fun _ _ disjoint _ here there => disjoint there here⟩
  have apart := pairwise.forall (ExtTreeMap.mem_toList_iff_getElem?_eq_some.mpr here)
    (ExtTreeMap.mem_toList_iff_getElem?_eq_some.mpr there)
    (fun same => different (Prod.mk.inj same).1)
  exact apart inside inside'

theorem Separate.outside {nodes : NodeMap (FlowNode FlowGraph)} (separate : Separate nodes)
    {id owner : NodeId} {node : FlowNode FlowGraph} (here : nodes[owner]? = some node)
    (inside : id ∈ node.embeddedIds) : nodes[id]? = none :=
  separate.fresh id
    (List.mem_flatMap.mpr ⟨_, ExtTreeMap.mem_toList_iff_getElem?_eq_some.mpr here, inside⟩)

section Reserves

/-- A step that reserves identifiers and touches nothing else of the plan. -/
structure Reserves (ids : List NodeId) (before after : AdvancedCompiler) : Prop where
  quiet : Quiet before after
  distinct : ids.Nodup
  fresh : ∀ id ∈ ids, id ∉ before.allIds ∧ id ∈ after.allIds

theorem Reserves.of_quiet (quiet : Quiet before after) : Reserves [] before after :=
  ⟨quiet, List.nodup_nil, by simp⟩

theorem Reserves.trans (left : Reserves ids first second) (right : Reserves ids' second third) :
    Reserves (ids ++ ids') first third := by
  refine ⟨left.quiet.trans right.quiet, ?_, ?_⟩
  · refine left.distinct.append right.distinct ?_
    intro id here there
    exact (right.fresh id there).1 (left.fresh id here).2
  · intro id member
    rcases List.mem_append.mp member with here | there
    · exact ⟨(left.fresh id here).1, right.quiet.ids id (left.fresh id here).2⟩
    · exact ⟨fun old => (right.fresh id there).1 (left.quiet.ids id old), (right.fresh id there).2⟩

private theorem reserves_forM {α : Type} {values : List α} {body : α → CompilerM PUnit}
    (ids : α → List NodeId)
    (step : ∀ value ∈ values, ∀ before after, body value before = .ok ((), after) →
      Reserves (ids value) before after)
    (yields : values.forM body before = .ok ((), after)) :
    Reserves (values.flatMap ids) before after := by
  induction values generalizing before with
  | nil =>
    cases yields
    exact .of_quiet (Quiet.refl _)
  | cons value values ih =>
    obtain ⟨_, middle, first, rest⟩ := yields_bind yields
    rw [List.flatMap_cons]
    exact (step value List.mem_cons_self before middle first).trans
      (ih (fun other member => step other (List.mem_cons_of_mem _ member)) rest)

private theorem reserves_reserveId {id : NodeId} (yields : reserveId id before = .ok ((), after)) :
    Reserves [id] before after := by
  refine ⟨quiet_reserveId id _ _ _ yields, List.nodup_singleton id, ?_⟩
  intro other member
  rw [List.mem_singleton.mp member]
  exact reserveId_fresh yields

private theorem reserves_branch {id : NodeId} {branch : SplitBranch FlowGraph}
    (linear : branch.flow = none)
    (yields : materializeBranch descend id ordinal branch before = .ok ((), after)) :
    Reserves (branch.declaredSteps.map (·.id)) before after := by
  obtain ⟨_, first, counted, rest⟩ := yields_bind yields
  cases counted
  obtain ⟨_, second, checked, steps⟩ := yields_bind rest
  rw [linear] at steps
  dsimp only at steps
  have quiet : Quiet before second := by
    have later := quiet_checkMaterializedNodes _ _ _ checked
    exact ⟨later.nodes, later.transitions, later.branches, later.records, later.ids⟩
  split at steps
  · cases steps
  · have reserved := reserves_forM (fun step : StepNode => [step.id])
      (fun _ _ _ _ yields => reserves_reserveId yields) steps
    have declared : branch.declaredSteps = branch.steps := by
      rw [SplitBranch.declaredSteps, linear]
      rfl
    rw [declared, List.map_eq_flatMap]
    exact (Reserves.of_quiet quiet).trans reserved

private theorem reserves_node {entry : NodeId × FlowNode FlowGraph} (flat : entry.2.Flat)
    (yields : materializeNode descend declaredEntry localNodes owners entry before =
      .ok (owners', after)) : Reserves entry.2.embeddedIds before after := by
  obtain ⟨source, node⟩ := entry
  cases node with
  | split split =>
    obtain ⟨_, _, materialized⟩ := materializeSplit_yields yields
    have reserved := reserves_forM
      (fun branch : SplitBranch FlowGraph × Nat => branch.1.declaredSteps.map (·.id))
      (fun branch member _ _ yields => reserves_branch
        (flat branch.1 (List.fst_mem_of_mem_zipIdx member)) yields) materialized
    have same : split.branches.zipIdx.flatMap (fun branch => branch.1.declaredSteps.map (·.id)) =
        split.branches.flatMap fun branch => branch.declaredSteps.map (·.id) := by
      have projected := List.flatMap_map Prod.fst
        (fun branch : SplitBranch FlowGraph => branch.declaredSteps.map (·.id)) split.branches.zipIdx
      rw [List.zipIdx_map_fst] at projected
      exact projected.symm
    rw [FlowNode.embeddedIds_split]
    rwa [same] at reserved
  | partitionedStep node =>
    obtain ⟨_, middle, reserved, ending⟩ := yields_bind yields
    obtain ⟨_, rfl⟩ := yields_pure ending
    exact reserves_reserveId reserved
  | step _ | decision _ | nestedJob _ | customLeaf _ | join _ =>
    obtain ⟨_, rfl⟩ := yields_pure yields
    exact .of_quiet (Quiet.refl _)

private theorem reserves_nodes {entries : List (NodeId × FlowNode FlowGraph)}
    (flat : ∀ entry ∈ entries, entry.2.Flat)
    (yields : entries.foldlM (materializeNode descend declaredEntry localNodes) owners before =
      .ok (owners', after)) : Reserves (entries.flatMap (·.2.embeddedIds)) before after := by
  induction entries generalizing owners before with
  | nil =>
    cases yields
    exact .of_quiet (Quiet.refl _)
  | cons entry entries ih =>
    rw [List.foldlM_cons] at yields
    obtain ⟨held, middle, first, rest⟩ := yields_bind yields
    rw [List.flatMap_cons]
    exact (reserves_node (flat entry List.mem_cons_self) first).trans
      (ih (fun other member => flat other (List.mem_cons_of_mem _ member)) rest)

end Reserves

section Advanced

variable {serde : Serde} {graph : FlowGraph} {jobName : JobName}
  {plan : CompiledExecutionPlan DefinitionIdentity} {compiler : AdvancedCompiler}
  {scope : CompiledFlowScope}

theorem AdvancedPlan.stages (advanced : AdvancedPlan serde graph jobName plan compiler scope) :
    ∃ first second middle third fourth prepared nestedScopes partitions nestedExits,
      Stages (compileScope 7) graph .default first second middle third fourth compiler prepared
        nestedScopes partitions nestedExits scope :=
  compileScopeWith_stages advanced.compiled

/-- A flat flow installs its own nodes and records no nested flow. -/
theorem AdvancedPlan.flat (advanced : AdvancedPlan serde graph jobName plan compiler scope)
    (flat : graph.Flat) : compiler.nestedRecords = ∅ ∧ Separate compiler.nodes := by
  obtain ⟨first, second, middle, third, fourth, prepared, nestedScopes, partitions, nestedExits,
    stages⟩ := advanced.stages
  obtain ⟨_, gathered⟩ := adds_prepareScope stages.preparing
  obtain ⟨_, quiet, reserved⟩ := prepareScope_prepared stages.preparing
  have unnested : prepared.nested = ∅ := by
    apply ExtTreeMap.ext_getElem?
    intro id
    rw [ExtTreeMap.getElem?_empty, Option.eq_none_iff_forall_ne_some]
    intro inner found
    obtain ⟨flow, member, _⟩ := (gathered.flows id inner).mp found
    rw [flat.1] at member
    cases member
  have nesting := stages.nesting
  rw [unnested] at nesting
  obtain ⟨rfl, rfl⟩ : nestedScopes = ∅ ∧ second = first := by
    cases nesting
    exact ⟨rfl, rfl⟩
  have normalizing := stages.normalizing
  obtain rfl : third = middle := by
    cases normalizing
    rfl
  obtain ⟨owners, folded, _⟩ := materializeLocalStructure_yields stages.materializing
  have embedded := reserves_nodes (fun entry member => by
    rw [ExtTreeMap.mem_toList_iff_getElem?_eq_some, gathered.nodes] at member
    exact flat.2 entry.2 member.1) folded
  have installed := install_installed stages.installing stages.connecting
  have nodes : compiler.nodes = prepared.localNodes := by
    apply ExtTreeMap.ext_getElem?
    intro id
    cases here : prepared.localNodes[id]? with
    | none =>
      rw [installed.otherNode id here, embedded.quiet.nodes, quiet.nodes]
      exact ExtTreeMap.getElem?_empty
    | some node => exact installed.localNode id node here
  refine ⟨?_, ?_⟩
  · rw [installed.records, embedded.quiet.records, quiet.records]
    rfl
  · rw [nodes]
    refine ⟨embedded.distinct, fun id member => ?_⟩
    by_contra present
    obtain ⟨node, found⟩ := Option.ne_none_iff_exists'.mp present
    have taken := (reserved id (List.mem_append_left _ (mem_keys_of_lookup found))).2
    exact (embedded.fresh id member).1 taken

/-- A nested flow has a record whose scope has an entry. -/
def Bounded (compiler : AdvancedCompiler) (owner : NodeId) : Prop :=
  ∃ record, compiler.nestedRecords[owner]? = some record ∧ record.scope.entry ∈ record.scope.members

private theorem normalizeNestedBoundary_bounded {owner other : NodeId} {inner : CompiledFlowScope}
    {before after : AdvancedCompiler} (entered : inner.entry ∈ inner.members)
    (yields : normalizeNestedBoundary nestedScopes nestedExits owner inner before = .ok ((), after)) :
    Bounded after owner ∧ (Bounded before other → Bounded after other) := by
  unfold normalizeNestedBoundary at yields
  cases found : nestedExits[owner]? with
  | none =>
    rw [found] at yields
    cases yields
  | some exits =>
    rw [found] at yields
    obtain ⟨_, middle, got, rest⟩ := yields_bind yields
    cases got
    obtain ⟨transitions, _, lifted, ending⟩ := yields_bind rest
    obtain ⟨_, rfl⟩ := yields_lift lifted
    cases ending
    refine ⟨⟨_, getElem?_insert_self _ _ _, entered⟩, ?_⟩
    intro ⟨record, held, kept⟩
    by_cases same : owner = other
    · subst same
      exact ⟨_, getElem?_insert_self _ _ _, entered⟩
    · exact ⟨record, (getElem?_insert_ne same).trans held, kept⟩

private theorem normalizeNestedBoundaries_bounded {entries : List (NodeId × CompiledFlowScope)}
    {before after : AdvancedCompiler} (entered : ∀ entry ∈ entries, entry.2.entry ∈ entry.2.members)
    (yields : entries.forM (fun entry =>
      normalizeNestedBoundary nestedScopes nestedExits entry.1 entry.2) before = .ok ((), after)) :
    (∀ entry ∈ entries, Bounded after entry.1) ∧
      ∀ owner, Bounded before owner → Bounded after owner := by
  induction entries generalizing before with
  | nil =>
    cases yields
    exact ⟨by simp, fun _ held => held⟩
  | cons entry entries ih =>
    obtain ⟨_, middle, first, later⟩ := yields_bind yields
    have here := fun other => @normalizeNestedBoundary_bounded _ _ entry.1 other _ _ _
      (entered entry List.mem_cons_self) first
    obtain ⟨each, kept⟩ := ih (fun other member => entered other (List.mem_cons_of_mem _ member)) later
    constructor
    · intro other member
      rcases List.mem_cons.mp member with rfl | old
      · exact kept _ (here other.1).1
      · exact each other old
    · exact fun owner held => kept owner ((here owner).2 held)

theorem AdvancedPlan.bounded (advanced : AdvancedPlan serde graph jobName plan compiler scope)
    {flow : NestedFlow FlowGraph} (member : flow ∈ graph.nestedFlows) : Bounded compiler flow.id := by
  obtain ⟨first, second, middle, third, fourth, prepared, nestedScopes, partitions, nestedExits,
    stages⟩ := advanced.stages
  obtain ⟨_, gathered⟩ := adds_prepareScope stages.preparing
  obtain ⟨_, quiet, _⟩ := prepareScope_prepared stages.preparing
  obtain ⟨grounded, _⟩ := quiet.same.grows Mapped.default.grounded
  have nested := compileNestedScopes_compiled (compileScope_compiles 7) grounded stages.nesting
  have present := nested.present (flow.id, flow.graph) (by
    rw [ExtTreeMap.mem_toList_iff_getElem?_eq_some, gathered.flows]
    exact ⟨flow, member, rfl, rfl⟩)
  obtain ⟨inner, found⟩ := Option.ne_none_iff_exists'.mp present
  obtain ⟨each, _⟩ := normalizeNestedBoundaries_bounded (fun entry member => by
    rw [ExtTreeMap.mem_toList_iff_getElem?_eq_some] at member
    obtain ⟨_, _, sealedScope, _⟩ := nested.each entry.1 entry.2 member
    exact sealedScope.entry) stages.normalizing
  obtain ⟨record, held, entered⟩ :=
    each (flow.id, inner) (ExtTreeMap.mem_toList_iff_getElem?_eq_some.mpr found)
  refine ⟨record, ?_, entered⟩
  rw [(install_installed stages.installing stages.connecting).records]
  exact held

/-- A flow branch has a recorded scope with an entry. -/
theorem AdvancedPlan.branch_scope (advanced : AdvancedPlan serde graph jobName plan compiler scope)
    {split : SplitNode FlowGraph} (member : .split split ∈ graph.nodes)
    {branch : SplitBranch FlowGraph} (among : branch ∈ split.branches)
    (flow : branch.flow.isSome = true) :
    ∃ ordinal < split.branches.length, ∃ inner, inner.entry ∈ inner.members ∧
      compiler.splitBranchScopes[(split.id, ordinal)]? = some inner := by
  obtain ⟨ordinal, within, found⟩ := List.mem_iff_getElem.mp among
  have installed := (advanced.installed split.id (.split split)).mpr ⟨.own member, rfl⟩
  have recorded := advanced.rooted.1.branches split.id split installed ordinal branch
    (by rw [List.getElem?_eq_getElem within, found])
  rw [flow] at recorded
  obtain ⟨inner, held⟩ := Option.isSome_iff_exists.mp recorded
  obtain ⟨mapped, _⟩ := compileScope_charts _ graph _ scope compiler Mapped.default advanced.compiled
  exact ⟨ordinal, within, inner, (mapped.sound _ inner held).entry, held⟩

end Advanced

section Base

variable {nodes : NodeMap (FlowNode FlowGraph)} {held held' held'' : ExtTreeSet NodeId}
  {ids ids' : List NodeId}

/-- Identifiers that are embedded one after the other. -/
structure Embeds (nodes : NodeMap (FlowNode FlowGraph)) (ids : List NodeId)
    (held held' : ExtTreeSet NodeId) : Prop where
  distinct : ids.Nodup
  fresh : ∀ id ∈ ids, nodes[id]? = none ∧ id ∉ held
  ids : ∀ id, id ∈ held' ↔ id ∈ ids ∨ id ∈ held

theorem Embeds.refl (held : ExtTreeSet NodeId) : Embeds nodes [] held held :=
  ⟨List.nodup_nil, by simp, by simp⟩

theorem Embeds.trans (left : Embeds nodes ids held held') (right : Embeds nodes ids' held' held'') :
    Embeds nodes (ids ++ ids') held held'' := by
  refine ⟨left.distinct.append right.distinct ?_, ?_, ?_⟩
  · intro id here there
    exact (right.fresh id there).2 ((left.ids id).mpr (.inl here))
  · intro id member
    rcases List.mem_append.mp member with here | there
    · exact left.fresh id here
    · obtain ⟨free, unused⟩ := right.fresh id there
      exact ⟨free, fun old => unused ((left.ids id).mpr (.inr old))⟩
  · intro id
    rw [right.ids, left.ids, List.mem_append, ← or_assoc, @or_comm (id ∈ ids')]

private theorem embeds_foldlM {α : Type} {values : List α}
    {body : ExtTreeSet NodeId → α → Except PlanError (ExtTreeSet NodeId)} (ids : α → List NodeId)
    (step : ∀ value ∈ values, ∀ held held', body held value = .ok held' →
      Embeds nodes (ids value) held held')
    (embedded : values.foldlM body held = Except.ok held') :
    Embeds nodes (values.flatMap ids) held held' := by
  induction values generalizing held with
  | nil =>
    cases embedded
    exact Embeds.refl _
  | cons value values ih =>
    rw [List.foldlM_cons] at embedded
    obtain ⟨middle, first, rest⟩ := bind_eq_ok embedded
    rw [List.flatMap_cons]
    exact (step value List.mem_cons_self held middle first).trans
      (ih (fun other member => step other (List.mem_cons_of_mem _ member)) rest)

private theorem embedStep_embeds {id : NodeId} (embedded : embedStep nodes held id = .ok held') :
    Embeds nodes [id] held held' := by
  unfold embedStep at embedded
  split at embedded
  · cases embedded
  · rename_i unused
    cases embedded
    rw [Bool.or_eq_true, not_or] at unused
    refine ⟨List.nodup_singleton id, ?_, ?_⟩
    · intro other member
      rw [List.mem_singleton.mp member]
      refine ⟨Tables.not_mem_iff_lookup.mp ?_, ?_⟩
      · simpa using unused.1
      · simpa using unused.2
    · intro other
      rw [ExtTreeSet.mem_insert, Std.LawfulEqOrd.compare_eq_iff_eq, List.mem_singleton, eq_comm]

private theorem checkLocalNode_embeds {entry : NodeId} {declared : NodeId × FlowNode FlowGraph}
    {before after : LocalScale} (flat : declared.2.Flat)
    (checked : checkLocalNode entry nodes before declared = .ok after) :
    Embeds nodes declared.2.embeddedIds before.embeddedIds after.embeddedIds := by
  obtain ⟨id, node⟩ := declared
  cases node with
  | split split =>
    unfold checkLocalNode checkSplit at checked
    dsimp only at checked
    repeat' split at checked
    all_goals first | cases checked | skip
    obtain ⟨embedded, folded, ending⟩ := bind_eq_ok checked
    cases ending
    rw [FlowNode.embeddedIds_split]
    refine embeds_foldlM (fun branch : SplitBranch FlowGraph => branch.declaredSteps.map (·.id))
      (fun branch member held held' checked => ?_) folded
    have linear : branch.declaredSteps = branch.steps := by
      rw [SplitBranch.declaredSteps, flat branch member]
      rfl
    unfold checkBranch at checked
    split at checked
    · cases checked
    · rw [linear, List.map_eq_flatMap]
      exact embeds_foldlM (fun step : StepNode => [step.id])
        (fun _ _ _ _ embedded => embedStep_embeds embedded) checked
  | partitionedStep node =>
    obtain ⟨embedded, reserved, ending⟩ := bind_eq_ok checked
    cases ending
    exact embedStep_embeds reserved
  | step _ | decision _ | nestedJob _ | customLeaf _ | join _ =>
    cases checked
    exact Embeds.refl _

private theorem checkLocalNodes_embeds {entry : NodeId}
    {entries : List (NodeId × FlowNode FlowGraph)}
    {before after : LocalScale} (flat : ∀ declared ∈ entries, declared.2.Flat)
    (checked : entries.foldlM (checkLocalNode entry nodes) before = .ok after) :
    Embeds nodes (entries.flatMap (·.2.embeddedIds)) before.embeddedIds after.embeddedIds := by
  induction entries generalizing before with
  | nil =>
    cases checked
    exact Embeds.refl _
  | cons declared entries ih =>
    rw [List.foldlM_cons] at checked
    obtain ⟨middle, first, rest⟩ := bind_eq_ok checked
    rw [List.flatMap_cons]
    exact (checkLocalNode_embeds (flat declared List.mem_cons_self) first).trans
      (ih (fun other member => flat other (List.mem_cons_of_mem _ member)) rest)

private theorem checkLocalScaleSubset_separate {entry : NodeId} {localScale : Bool}
    (flat : ∀ declared ∈ nodes.toList, declared.2.Flat)
    (checked : checkLocalScaleSubset entry nodes = .ok localScale) : Separate nodes := by
  obtain ⟨after, folded, _⟩ := bind_eq_ok checked
  have embedded := checkLocalNodes_embeds flat folded
  exact ⟨embedded.distinct, fun id member => (embedded.fresh id member).1⟩

variable {serde : Serde} {graph : FlowGraph} {jobName : JobName} {revision : DefinitionRevision}
  {plan : CompiledExecutionPlan DefinitionIdentity} {entry : NodeId} {localScale : Bool}
  {outgoing : Edges}

private theorem flat_of_isAdvanced {node : FlowNode FlowGraph} (plain : node.isAdvanced = false) :
    node.Flat := by
  cases node with
  | split split =>
    intro branch member
    rw [FlowNode.isAdvanced, List.any_eq_false] at plain
    simpa using plain branch member
  | step _ | decision _ | nestedJob _ | customLeaf _ | join _ | partitionedStep _ => trivial

/-- Only flat flows have a base format. -/
theorem BasePlan.flat (base : BasePlan serde graph jobName revision plan entry localScale outgoing) :
    graph.Flat := by
  have plain := base.plain
  simp only [FlowGraph.requiresAdvancedFormat, Bool.or_eq_false_iff, List.any_eq_false] at plain
  refine ⟨by simpa using plain.1.2, fun node member => flat_of_isAdvanced ?_⟩
  have simple := plain.2 node member
  simp only [Bool.or_eq_true, not_or, Bool.not_eq_true] at simple
  exact simple.2

theorem BasePlan.separate
    (base : BasePlan serde graph jobName revision plan entry localScale outgoing) :
    Separate plan.nodes := by
  refine checkLocalScaleSubset_separate (fun declared member => ?_) base.stages.scaled
  have among : declared.2 ∈ plan.nodes.values := by
    rw [Tables.values_eq]
    exact List.mem_map_of_mem member
  exact flat_of_isAdvanced (base.plainNode among).2.2

end Base

end OxideBatch.Plan
