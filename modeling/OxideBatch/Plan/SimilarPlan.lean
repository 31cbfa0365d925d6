import OxideBatch.Plan.SimilarCompile

/-! Plans do not depend on the order of declarations: flows that are the same up to
order have the same manifest, so the same identity, in plans that are the same up to
the order inside retained branches. -/

namespace OxideBatch.Plan

open OxideBatch.Core Program Agreement
open Std (ExtTreeMap ExtTreeSet)

section Pairs

variable {α β γ : Type} {related : α → β → Prop} {values : List α} {others : List β}

private theorem map_eq_of_forall₂ {left : α → γ} {right : β → γ}
    (pairs : List.Forall₂ related values others)
    (same : ∀ value other, related value other → left value = right other) :
    values.map left = others.map right := by
  induction pairs with
  | nil => rfl
  | cons here _ ih => rw [List.map_cons, List.map_cons, same _ _ here, ih]

private theorem any_eq_of_forall₂ {left : α → Bool} {right : β → Bool}
    (pairs : List.Forall₂ related values others)
    (same : ∀ value other, related value other → left value = right other) :
    values.any left = others.any right := by
  induction pairs with
  | nil => rfl
  | cons here _ ih => rw [List.any_cons, List.any_cons, same _ _ here, ih]

end Pairs

section Format

variable {like : StepNode → StepNode → Prop}
  (alike : ∀ left right, like left right → StepNode.Like left right)

theorem SimilarBranch.steps {branch branch' : SplitBranch FlowGraph}
    (similar : SimilarBranch like branch branch') : List.Forall₂ like branch.steps branch'.steps := by
  cases similar with
  | of steps _ => exact steps

theorem SimilarBranch.flow {branch branch' : SplitBranch FlowGraph}
    (similar : SimilarBranch like branch branch') : branch.flow.isSome = branch'.flow.isSome := by
  obtain ⟨_, flow⟩ := similar
  generalize branch.flow = declared at flow
  generalize branch'.flow = declared' at flow
  cases flow with
  | some _ => rfl
  | none => rfl

private theorem forall₂_branchSteps {branches branches' : List (SplitBranch FlowGraph)}
    (pairs : List.Forall₂ (SimilarBranch like) branches branches') :
    List.Forall₂ like (branches.flatMap (·.steps)) (branches'.flatMap (·.steps)) :=
  List.rel_flatMap pairs fun _ _ similar => similar.steps

include alike

private theorem isNonrestartable_alike {left right : StepNode} (pair : like left right) :
    left.isNonrestartable = right.isNonrestartable := by
  unfold StepNode.isNonrestartable StepNode.restartPolicy
  rw [(alike left right pair).start]

theorem SimilarNode.format {left right : FlowNode FlowGraph} (similar : SimilarNode like left right) :
    (left.hasNonrestartableStep || left.hasRepeatDefinition || left.isAdvanced) =
      (right.hasNonrestartableStep || right.hasRepeatDefinition || right.isAdvanced) := by
  cases similar with
  | step pair =>
    simp only [FlowNode.hasNonrestartableStep, FlowNode.hasRepeatDefinition,
      isNonrestartable_alike alike pair, (alike _ _ pair).repeats]
    rfl
  | partitionedStep node pair =>
    simp only [FlowNode.hasNonrestartableStep, FlowNode.hasRepeatDefinition,
      isNonrestartable_alike alike pair, (alike _ _ pair).repeats]
    rfl
  | split node pairs =>
    have steps := forall₂_branchSteps pairs
    have restart := any_eq_of_forall₂ steps fun _ _ pair => isNonrestartable_alike alike pair
    have repeats : (node.branches.flatMap (·.steps)).any (·.repeatDefinition.isSome) = _ :=
      any_eq_of_forall₂ steps fun left right pair => congrArg Option.isSome (alike _ _ pair).repeats
    have flows : node.branches.any (·.flow.isSome) = _ :=
      any_eq_of_forall₂ pairs fun _ _ similar => similar.flow
    simp only [FlowNode.hasNonrestartableStep, FlowNode.hasRepeatDefinition, FlowNode.isAdvanced,
      restart, repeats, flows]
  | decision _ | nestedJob _ | customLeaf _ | join _ => rfl

theorem Similar.requiresAdvancedFormat {left right : FlowGraph} (similar : Similar like left right) :
    left.requiresAdvancedFormat = right.requiresAdvancedFormat := by
  cases similar with
  | of _ reordered nodes _ reorderedFlows flows components incrementer policy =>
    have flowless : left.nestedFlows.isEmpty = right.nestedFlows.isEmpty := by
      rw [reorderedFlows.isEmpty_eq, Bool.eq_iff_iff, List.isEmpty_iff_length_eq_zero,
        List.isEmpty_iff_length_eq_zero, flows.length_eq]
    unfold FlowGraph.requiresAdvancedFormat
    rw [policy, incrementer, components.isEmpty_eq, flowless, reordered.any_eq,
      any_eq_of_forall₂ nodes fun _ _ similar => similar.format alike]

end Format

section Manifest

variable {like : StepNode → StepNode → Prop}
  (alike : ∀ left right, like left right → StepNode.Like left right)

include alike

private theorem map_manifestValue_alike {steps steps' : List StepNode}
    (pairs : List.Forall₂ like steps steps') :
    steps.map StepNode.manifestValue = steps'.map StepNode.manifestValue :=
  map_eq_of_forall₂ pairs fun left right pair => (alike left right pair).manifest

theorem SimilarNode.manifestValue {left right : FlowNode FlowGraph}
    (similar : SimilarNode like left right) : left.manifestValue = right.manifestValue := by
  cases similar with
  | step pair => exact (alike _ _ pair).manifest
  | partitionedStep node pair =>
    simp only [FlowNode.manifestValue, PartitionedStepNode.manifestValue, (alike _ _ pair).manifest]
  | split node pairs =>
    have branches : node.branches.map SplitBranch.manifestValue = _ :=
      map_eq_of_forall₂ pairs fun _ _ similar =>
        congrArg Json.array (map_manifestValue_alike alike similar.steps)
    simp only [FlowNode.manifestValue, branches]
    rfl
  | decision _ | nestedJob _ | customLeaf _ | join _ => rfl

theorem SimilarNode.advancedNodeValue {left right : FlowNode FlowGraph} (branchScopes : BranchScopes)
    (similar : SimilarNode like left right) :
    advancedNodeValue branchScopes left = advancedNodeValue branchScopes right := by
  cases similar with
  | @split node branches' pairs =>
    have branches : node.branches.zipIdx.map (branchManifest branchScopes node.id) =
        branches'.zipIdx.map (branchManifest branchScopes node.id) := by
      apply map_eq_of_forall₂ (forall₂_zipIdx pairs 0)
      rintro ⟨branch, ordinal⟩ ⟨branch', _⟩ ⟨similar, rfl⟩
      unfold branchManifest
      rw [map_manifestValue_alike alike similar.steps]
    simp only [Plan.advancedNodeValue, branches]
    rfl
  | step pair => exact SimilarNode.manifestValue alike (.step pair)
  | partitionedStep node pair => exact SimilarNode.manifestValue alike (.partitionedStep node pair)
  | decision _ | nestedJob _ | customLeaf _ | join _ => rfl

theorem Alike.manifest {compiler compiler' : AdvancedCompiler} (related : Alike like compiler compiler')
    (jobName : JobName) (rootScope : CompiledFlowScope)
    (incrementer : Option ParameterIncrementerIdentity) :
    compiler.manifest jobName rootScope incrementer =
      compiler'.manifest jobName rootScope incrementer := by
  obtain ⟨nodes, rfl, nodesLike⟩ := related
  have projected : ∀ project : NodeId → FlowNode FlowGraph → Json,
      (∀ id left right, SimilarNode like left right → project id left = project id right) →
      compiler.nodes.map project = nodes.map project := by
    intro project same
    apply ExtTreeMap.ext_getElem?
    intro id
    rw [ExtTreeMap.getElem?_map, ExtTreeMap.getElem?_map]
    cases here : compiler.nodes[id]? with
    | none => rw [nodesLike.absent.mp here]
    | some node =>
      obtain ⟨node', found, similar⟩ := nodesLike.lookup here
      rw [found]
      exact congrArg some (same id node node' similar)
  have values : compiler.nodeValues = AdvancedCompiler.nodeValues { compiler with nodes } := by
    unfold AdvancedCompiler.nodeValues
    dsimp only
    rw [projected]
    intro id left right similar
    unfold advancedNodeManifest
    rw [similar.advancedNodeValue alike]
  unfold AdvancedCompiler.manifest
  rw [← values]

end Manifest

section Base

variable {like : StepNode → StepNode → Prop} {nodes nodes' : NodeMap (FlowNode FlowGraph)}
  (nodesLike : MapLike (SimilarNode like) nodes nodes')

include nodesLike

private theorem connect_alike : connect nodes = connect nodes' := by
  funext outgoing transition
  unfold connect
  rw [validateTransition_alike nodesLike]

private theorem expandFlow_alike (transitions : Edges) :
    expandFlow nodes transitions = expandFlow nodes' transitions := by
  funext id
  unfold expandFlow
  rw [nodesLike.bind_splitJoin?]

theorem MapLike.size : nodes.size = nodes'.size := by
  rw [← ExtTreeMap.length_keys, ← ExtTreeMap.length_keys, nodesLike.keys]

private theorem checkReachableAndAcyclic_alike (entry : NodeId) (transitions : Edges) :
    checkReachableAndAcyclic entry nodes transitions =
      checkReachableAndAcyclic entry nodes' transitions := by
  unfold checkReachableAndAcyclic
  rw [expandFlow_alike nodesLike, nodesLike.size, nodesLike.keys]

private theorem embedStep_alike : embedStep nodes = embedStep nodes' := by
  funext embedded id
  unfold embedStep
  rw [nodesLike.contains]

/-- Transitions in any order are connected to the same edges. -/
private theorem connectAll_alike {transitions transitions' : List FlowTransition}
    (perm : transitions.Perm transitions') :
    Agree EdgesLike (transitions.foldlM (connect nodes) ∅)
      (transitions'.foldlM (connect nodes') ∅) := by
  rw [connect_alike nodesLike]
  apply Agree.foldlM_perm EdgesLike.refl EdgesLike.trans ?_ ?_ perm (EdgesLike.refl _)
  · intro held held' transition alike
    refine Agree.of_eq.bind fun _ _ _ => ?_
    exact pushTransition_alike alike transition
  · intro held first second
    unfold connect
    cases valid : validateTransition first nodes' ∅ with
    | error failure =>
      cases valid' : validateTransition second nodes' ∅ with
      | error failure' => exact trivial
      | ok _ =>
        cases pushTransition held second with
        | error failure' => exact trivial
        | ok _ => exact trivial
    | ok _ =>
      cases valid' : validateTransition second nodes' ∅ with
      | error failure' =>
        cases pushTransition held first with
        | error failure' => exact trivial
        | ok _ => exact trivial
      | ok _ => exact pushTransition_swap held first second

private theorem checkOutgoing_alike {outgoing outgoing' : Edges}
    (edgesLike : EdgesLike outgoing outgoing') :
    Agree (fun _ _ => True) (nodes.toList.forM (checkOutgoing outgoing))
      (nodes'.toList.forM (checkOutgoing outgoing')) := by
  have pairs := nodesLike.toList
  generalize nodes.toList = entries at pairs
  generalize nodes'.toList = entries' at pairs
  induction pairs with
  | nil => exact trivial
  | @cons entry entry' _ _ here _ ih =>
    refine @Agree.bind _ _ _ _ _ (fun _ _ => True) _ _ _ _ _ ?_ fun _ _ _ => ih
    obtain ⟨sameId, similar⟩ := here
    unfold checkOutgoing checkOutgoingUnder
    rw [sameId, similar.splitJoin?]
    split
    · exact trivial
    · have perm := edgesLike.edgesOf entry'.1
      unfold edgesOf at perm
      generalize outgoing[entry'.1]?.getD [] = edges at perm
      generalize outgoing'[entry'.1]?.getD [] = edges' at perm
      cases edges with
      | nil =>
        rw [List.nil_perm.mp perm]
        exact trivial
      | cons edge edges =>
        cases edges' with
        | nil => exact absurd perm.eq_nil (List.cons_ne_nil _ _)
        | cons edge' edges' => exact checkUnambiguous_perm perm

variable (alike : ∀ left right, like left right → StepNode.Like left right)

include alike

private theorem checkBranch_alike {branch branch' : SplitBranch FlowGraph} (split : NodeId)
    (embedded : ExtTreeSet NodeId) (similar : SimilarBranch like branch branch') :
    checkBranch nodes split embedded branch = checkBranch nodes' split embedded branch' := by
  have ids : branch.steps.map (·.id) = branch'.steps.map (·.id) :=
    map_eq_of_forall₂ similar.steps fun left right pair => (alike left right pair).id
  have folded : ∀ steps : List StepNode,
      steps.foldlM (fun embedded step => embedStep nodes' embedded step.id) embedded =
        (steps.map (·.id)).foldlM (embedStep nodes') embedded := by
    intro steps
    rw [List.foldlM_map]
  unfold checkBranch
  rw [similar.steps.length_eq, embedStep_alike nodesLike, folded, folded, ids]

private theorem checkLocalNode_alike {entry : NodeId}
    {declared declared' : NodeId × FlowNode FlowGraph}
    (held : LocalScale) (sameId : declared.1 = declared'.1)
    (similar : SimilarNode like declared.2 declared'.2) :
    checkLocalNode entry nodes held declared = checkLocalNode entry nodes' held declared' := by
  obtain ⟨id, node⟩ := declared
  obtain ⟨_, node'⟩ := declared'
  cases sameId
  cases similar with
  | @split split branches pairs =>
    have folded : split.branches.foldlM (checkBranch nodes id) held.embeddedIds =
        branches.foldlM (checkBranch nodes' id) held.embeddedIds := by
      generalize held.embeddedIds = embedded
      generalize split.branches = declared at pairs
      induction pairs generalizing embedded with
      | nil => rfl
      | cons here _ ih =>
        rw [List.foldlM_cons, List.foldlM_cons, checkBranch_alike nodesLike alike id embedded here]
        exact congrArg _ (funext ih)
    simp only [checkLocalNode, checkSplit, nodesLike.any_isJoin, folded, pairs.length_eq]
  | partitionedStep node pair =>
    simp only [checkLocalNode, embedStep_alike nodesLike, (alike _ _ pair).id]
  | step _ | decision _ | nestedJob _ | customLeaf _ | join _ => rfl

private theorem checkLocalScaleSubset_alike (entry : NodeId) :
    Agree (· = ·) (checkLocalScaleSubset entry nodes) (checkLocalScaleSubset entry nodes') := by
  have folded : Agree (· = ·) (nodes.toList.foldlM (checkLocalNode entry nodes) ⟨∅, ∅, false⟩)
      (nodes'.toList.foldlM (checkLocalNode entry nodes') ⟨∅, ∅, false⟩) := by
    apply Agree.foldlM ?_ nodesLike.toList rfl
    rintro held _ declared declared' rfl ⟨sameId, similar⟩
    rw [checkLocalNode_alike nodesLike alike held sameId similar]
    exact Agree.of_eq
  refine folded.bind ?_
  rintro held _ rfl
  rw [nodesLike.size]
  split
  · exact trivial
  · have same : (nodes.toList.find? fun declared =>
          declared.2.isJoin && !held.joinOwners.contains declared.1).isSome =
        (nodes'.toList.find? fun declared =>
          declared.2.isJoin && !held.joinOwners.contains declared.1).isSome := by
      apply isSome_find? nodesLike.toList
      rintro declared declared' ⟨sameId, similar⟩
      rw [sameId, similar.isJoin]
    cases orphan : nodes.toList.find? fun declared =>
        declared.2.isJoin && !held.joinOwners.contains declared.1 with
    | some declared =>
      rw [orphan] at same
      obtain ⟨declared', orphan'⟩ := Option.isSome_iff_exists.mp same.symm
      rw [orphan']
      exact trivial
    | none =>
      rw [orphan] at same
      have orphan' := Option.isSome_eq_false_iff.mp same.symm
      rw [Option.isNone_iff_eq_none.mp orphan']
      exact rfl

end Base

section Plans

variable {like : StepNode → StepNode → Prop} {Definition : Type}
  (alike : ∀ left right, like left right → StepNode.Like left right)

/-- Plans that differ in their nodes alone, and there up to the order inside branches. -/
def PlanLike (like : StepNode → StepNode → Prop) (left right : CompiledExecutionPlan Definition) :
    Prop :=
  ∃ nodes, right = { left with nodes } ∧ MapLike (SimilarNode like) left.nodes nodes

variable {serde : Serde} {jobName : JobName} {revision : DefinitionRevision} {left right : FlowGraph}

theorem Similar.incrementer (similar : Similar like left right) :
    left.parameterIncrementer = right.parameterIncrementer := by
  cases similar with
  | of _ _ _ _ _ _ _ incrementer _ => exact incrementer

include alike

private theorem compileAdvanced_alike (similar : Similar like left right) :
    Agree (PlanLike like) (compileAdvanced serde jobName revision left)
      (compileAdvanced serde jobName revision right) := by
  have start : Alike like AdvancedCompiler.default AdvancedCompiler.default :=
    ⟨_, rfl, MapLike.empty⟩
  refine (simulates_compileScope alike maxFlowCompositionDepth similar _ _ start).bind ?_
  rintro ⟨rootScope, compiler⟩ ⟨_, compiler'⟩ ⟨rfl, related⟩
  dsimp only
  rw [related.manifest alike, similar.incrementer]
  refine Agree.of_eq.bind ?_
  rintro definition _ rfl
  obtain ⟨nodes, rfl, nodesLike⟩ := related
  exact ⟨nodes, rfl, nodesLike⟩

omit alike in
/-- Edges that are the same up to order are sorted into the same edges. -/
private theorem sortEdges_alike {outgoing outgoing' : Edges}
    (edgesLike : EdgesLike outgoing outgoing')
    (sourced : Sourced outgoing) :
    (outgoing.map fun _ edges => sortTransitions edges) =
      outgoing'.map fun _ edges => sortTransitions edges := by
  apply ExtTreeMap.ext_getElem?
  intro id
  rw [ExtTreeMap.getElem?_map, ExtTreeMap.getElem?_map]
  cases here : outgoing[id]? with
  | none => rw [edgesLike.absent.mp here]
  | some edges =>
    obtain ⟨edges', found, perm⟩ := edgesLike.lookup here
    rw [found]
    exact congrArg some (sortTransitions_eq_of_perm perm (sourced id edges here))

private theorem compileBase_alike (similar : Similar like left right) :
    Agree (PlanLike like) (compileBase serde jobName revision left)
      (compileBase serde jobName revision right) := by
  cases similar with
  | of sameEntry reordered nodes transitions _ _ _ _ _ =>
    unfold compileBase compileBaseUnder
    rw [sameEntry, reordered.length_eq, nodes.length_eq, transitions.length_eq]
    cases right.entry with
    | none => exact trivial
    | some entry =>
      dsimp only
      split
      · exact trivial
      · split
        · exact trivial
        · refine (collectNodes_agree alike reordered nodes).bind ?_
          intro localNodes localNodes' nodesLike
          rw [nodesLike.contains]
          split
          · exact trivial
          · refine (checkLocalScaleSubset_alike nodesLike alike entry).bind ?_
            rintro localScale _ rfl
            refine (connectAll_alike nodesLike transitions).of_answers.bind ?_
            rintro outgoing outgoing' ⟨edgesLike, yields, _⟩
            have sourced := (partitionTransitions_sourced (connect_partition yields)).1
            refine (checkOutgoing_alike nodesLike edgesLike).bind fun _ _ _ => ?_
            have values : localNodes.values.map FlowNode.manifestValue =
                localNodes'.values.map FlowNode.manifestValue :=
              map_eq_of_forall₂ nodesLike.values fun _ _ similar => similar.manifestValue alike
            rw [sortEdges_alike edgesLike sourced, checkReachableAndAcyclic_alike nodesLike,
              flowManifest, values]
            refine Agree.of_eq.bind fun _ _ _ => ?_
            refine Agree.of_eq.bind ?_
            rintro definition _ rfl
            refine ⟨localNodes', ?_, nodesLike⟩
            unfold basePlan
            rw [nodesLike.keys]

theorem compile_alike (similar : Similar like left right) :
    Agree (PlanLike like) (left.compile serde jobName revision)
      (right.compile serde jobName revision) := by
  unfold FlowGraph.compile FlowGraph.compileUnder
  rw [similar.requiresAdvancedFormat alike]
  split
  · exact compileAdvanced_alike alike similar
  · exact compileBase_alike alike similar

end Plans

section Order

/-- A flow with its declarations in another order, at every level. -/
def Reordered : FlowGraph → FlowGraph → Prop := Similar (· = ·)

/-- The node retains no declared flow. -/
def FlowNode.Flat : FlowNode FlowGraph → Prop
  | .split node => ∀ branch ∈ node.branches, branch.flow = none
  | _ => True

private theorem branches_eq_of_flat {branches branches' : List (SplitBranch FlowGraph)}
    (pairs : List.Forall₂ (SimilarBranch (· = ·)) branches branches')
    (flat : ∀ branch ∈ branches, branch.flow = none) : branches = branches' := by
  induction pairs with
  | nil => rfl
  | @cons branch branch' _ _ here _ ih =>
    rw [ih fun other member => flat other (List.mem_cons_of_mem _ member)]
    obtain ⟨steps, flow⟩ := here
    have declared := flat branch List.mem_cons_self
    obtain ⟨first, none⟩ := branch
    obtain ⟨second, declared'⟩ := branch'
    cases declared
    rw [List.forall₂_eq_eq_eq] at steps
    cases steps
    cases flow
    rfl

theorem SimilarNode.eq_of_flat {left right : FlowNode FlowGraph}
    (similar : SimilarNode (· = ·) left right) (flat : left.Flat) : left = right := by
  cases similar with
  | step same => rw [same]
  | partitionedStep node same => rw [← same]
  | split node pairs => rw [← branches_eq_of_flat pairs flat]
  | decision _ | nestedJob _ | customLeaf _ | join _ => rfl

theorem PlanLike.eq_of_flat {plan plan' : CompiledExecutionPlan DefinitionIdentity}
    (alike : PlanLike (· = ·) plan plan')
    (flat : ∀ (id : NodeId) node, plan.nodes[id]? = some node → node.Flat) : plan = plan' := by
  obtain ⟨nodes, rfl, nodesLike⟩ := alike
  have same : plan.nodes = nodes := by
    apply ExtTreeMap.ext_getElem?
    intro id
    cases here : plan.nodes[id]? with
    | none => rw [nodesLike.absent.mp here]
    | some node =>
      obtain ⟨node', found, similar⟩ := nodesLike.lookup here
      rw [found, similar.eq_of_flat (flat id node here)]
  rw [← same]

/-- The order of declarations decides neither whether a flow compiles nor its manifest
and digest. The plans differ at most inside the flows that splits retain. -/
theorem compile_reordered (serde : Serde) (graph graph' : FlowGraph) (jobName : JobName)
    (revision : DefinitionRevision) (reordered : Reordered graph graph') :
    (graph.compile serde jobName revision).isOk = (graph'.compile serde jobName revision).isOk ∧
      ∀ plan plan', graph.compile serde jobName revision = .ok plan →
        graph'.compile serde jobName revision = .ok plan' →
        plan.definition.canonicalManifest = plan'.definition.canonicalManifest ∧
          plan.definition.manifestDigest = plan'.definition.manifestDigest ∧
          PlanLike (· = ·) plan plan' ∧
          ((∀ (id : NodeId) node, plan.nodes[id]? = some node → node.Flat) → plan = plan') := by
  have agree := @compile_alike (· = ·) (by rintro left _ rfl; exact StepNode.Like.refl left) serde
    jobName revision graph graph' reordered
  refine ⟨agree.ok_iff, ?_⟩
  intro plan plan' compiled compiled'
  rw [compiled, compiled'] at agree
  have alike : PlanLike (· = ·) plan plan' := agree
  have same : plan'.definition = plan.definition := by
    obtain ⟨nodes, rfl, _⟩ := agree
    rfl
  rw [same]
  exact ⟨rfl, rfl, alike, alike.eq_of_flat⟩

/-- A fan-out whose flow branch declares its two steps in either order. -/
def pairFlow (swapped : Bool) : FlowGraph :=
  let load : NodeId := ⟨"load", Eq.refl true⟩
  let fan : NodeId := ⟨"fan", Eq.refl true⟩
  let left : NodeId := ⟨"left", Eq.refl true⟩
  let first : NodeId := ⟨"first", Eq.refl true⟩
  let second : NodeId := ⟨"second", Eq.refl true⟩
  let merge : NodeId := ⟨"merge", Eq.refl true⟩
  let any : ExitPattern := ⟨"*", Eq.refl true⟩
  let plain : NodeId → StepNode := fun id =>
    { id, stepName := id, components := .tasklet ⟨"v1", Eq.refl true⟩,
      start := ⟨StartLimit.unrestricted, false, .restartable⟩,
      fault := none, listeners := [], repeatDefinition := none }
  let steps : List (FlowNode FlowGraph) := [.step (plain first), .step (plain second)]
  let inner : FlowGraph :=
    { entry := some first
      nodes := if swapped then steps.reverse else steps
      transitions := [⟨first, any, .node second⟩, ⟨second, any, .terminal .complete⟩]
      nestedFlows := []
      scopedComponents := []
      parameterIncrementer := none
      jobRestartPolicy := .restartable }
  { entry := some load
    nodes := [.step (plain load),
      .split ⟨fan, [⟨[plain left], none⟩, ⟨[], some inner⟩], merge, 2, .cancelSiblings⟩,
      .join ⟨merge⟩]
    transitions := [⟨load, any, .node fan⟩, ⟨merge, any, .terminal .complete⟩]
    nestedFlows := []
    scopedComponents := []
    parameterIncrementer := none
    jobRestartPolicy := .restartable }

def pairManifest : Json :=
  match (compileScope maxFlowCompositionDepth (pairFlow false)).run .default with
  | .ok (scope, compiler) => compiler.manifest fanJob scope none
  | .error _ => .null

/-- The serializer and the digest on the one manifest of both orders. -/
def pairSerde : Serde where
  toVec document := some document.toBytes
  fromSlice bytes := if bytes = pairManifest.toBytes then some pairManifest else none
  sha256 bytes :=
    if bytes = pairManifest.toBytes then
      0x3f161f2cc8153a637cd9934149eee4b4e3a04aa4d9947d98b26aa196d7587564
    else 0

def pairCompiled (swapped : Bool) : Except PlanError (CompiledExecutionPlan DefinitionIdentity) :=
  (pairFlow swapped).compile pairSerde fanJob ⟨"r1", Eq.refl true⟩

private theorem pairFlow_reordered : Reordered (pairFlow false) (pairFlow true) := by
  have same : ∀ step : StepNode, SimilarNode (· = ·) (.step step) (.step step) :=
    fun _ => .step rfl
  refine .of rfl (List.Perm.refl _) ?_ (List.Perm.refl _) (List.Perm.refl _) .nil
    (List.Perm.refl _) rfl rfl
  refine .cons (same _) (.cons ?_ (.cons (.join _) .nil))
  refine .split _ (.cons (.of (.cons rfl .nil) .none) (.cons (.of .nil (.some ?_)) .nil))
  refine .of rfl (List.Perm.swap _ _ _) (.cons (same _) (.cons (same _) .nil)) (List.Perm.refl _)
    (List.Perm.refl _) .nil (List.Perm.refl _) rfl rfl

private theorem pairCompiled_ok (swapped : Bool) : ∃ plan, pairCompiled swapped = .ok plan := by
  have ok : (pairCompiled swapped).isOk = true := by
    cases swapped <;> decide +kernel
  cases compiled : pairCompiled swapped with
  | error failure =>
    rw [compiled] at ok
    cases ok
  | ok plan => exact ⟨plan, rfl⟩

theorem compile_reordered_pairFlow :
    ∃ plan plan', pairCompiled false = .ok plan ∧ pairCompiled true = .ok plan' ∧
      plan.definition.canonicalManifest = plan'.definition.canonicalManifest := by
  obtain ⟨plan, compiled⟩ := pairCompiled_ok false
  obtain ⟨plan', compiled'⟩ := pairCompiled_ok true
  have whole := compile_reordered pairSerde _ _ fanJob ⟨"r1", by decide⟩ pairFlow_reordered
  exact ⟨plan, plan', compiled, compiled', (whole.2 plan plan' compiled compiled').1⟩

/-- The declared order of the nodes in the flow branches of a plan. -/
def retainedOrder (plan : CompiledExecutionPlan DefinitionIdentity) : List (List NodeId) :=
  plan.nodes.values.flatMap fun
    | .split split => split.branches.map fun branch =>
      (branch.flow.map fun flow => flow.nodes.map (·.id)).getD []
    | _ => []

/-- A split keeps its declared flow, so plans of two orders need not be equal. -/
theorem pairFlow_plans_differ : ¬ ∀ (serde : Serde) (graph graph' : FlowGraph) (jobName : JobName)
    (revision : DefinitionRevision), Reordered graph graph' →
    (graph.compile serde jobName revision).isOk = (graph'.compile serde jobName revision).isOk ∧
      ∀ plan plan', graph.compile serde jobName revision = .ok plan →
        graph'.compile serde jobName revision = .ok plan' →
        plan = plan' ∧
          plan.definition.canonicalManifest = plan'.definition.canonicalManifest ∧
          plan.definition.manifestDigest = plan'.definition.manifestDigest := by
  intro equal
  have orders : (pairCompiled false).toOption.map retainedOrder ≠
      (pairCompiled true).toOption.map retainedOrder := by
    decide +kernel
  obtain ⟨plan, compiled⟩ := pairCompiled_ok false
  obtain ⟨plan', compiled'⟩ := pairCompiled_ok true
  have whole := equal pairSerde _ _ fanJob ⟨"r1", by decide⟩ pairFlow_reordered
  have same := (whole.2 plan plan' compiled compiled').1
  rw [compiled, compiled', same] at orders
  exact orders rfl

end Order

end OxideBatch.Plan
