import OxideBatch.Plan.UpgradeEndpoints

/-! What an accepted upgrade covers: every walked node of the source, and the durable
state that the source really declares for it. -/

namespace OxideBatch.Plan

open OxideBatch.Core Program
open Json (member? hasMember insertMember objects memberObjects)
open Std (ExtTreeMap ExtTreeSet)

section Accepted

variable {serde : Serde} {source target : DefinitionIdentity} {nodes : List DefinitionNodeUpgrade}
  {transforms : List DefinitionStateTransform} {key : DefinitionUpgradeKey}
  {revision : DefinitionUpgradeRevision} {upgrade : DefinitionUpgrade}

/-- What `transformed` has checked of an upgrade it accepts. -/
structure Checked (serde : Serde) (source target : DefinitionIdentity)
    (nodes : List DefinitionNodeUpgrade) (transforms : List DefinitionStateTransform)
    (mapping : NodeMap NodeId) (sourceIds targetIds : ExtTreeSet NodeId) : Prop where
  lookup : ∀ old new : NodeId, mapping[old]? = some new ↔ ⟨old, new⟩ ∈ nodes
  injective : ∀ old old' new : NodeId, mapping[old]? = some new → mapping[old']? = some new →
    old = old'
  sourceRead : definitionUpgradeSourceNodes serde source = .ok sourceIds
  targetRead : definitionUpgradeSourceNodes serde target = .ok targetIds
  domain : ∀ id, id ∈ mapping ↔ id ∈ sourceIds
  range : ∀ old new : NodeId, mapping[old]? = some new → new ∈ targetIds
  state : ∀ old new : NodeId, mapping[old]? = some new →
    validateNode serde source target transforms (old, new) = .ok ()

private theorem transformed_checked
    (accepted : DefinitionUpgrade.transformed serde key revision source target nodes transforms =
      .ok upgrade) :
    upgrade.transforms = transforms ∧ ∃ sourceIds targetIds,
      Checked serde source target nodes transforms upgrade.nodeMapping sourceIds targetIds := by
  unfold DefinitionUpgrade.transformed at accepted
  split at accepted
  · cases accepted
  · obtain ⟨⟨mapping, targets⟩, mapped, rest⟩ := bind_eq_ok accepted
    dsimp only at rest
    split at rest
    · cases rest
    · obtain ⟨sourceIds, sourceRead, rest⟩ := bind_eq_ok rest
      obtain ⟨_, sourceChecked, rest⟩ := bind_eq_ok rest
      obtain ⟨targetIds, targetRead, rest⟩ := bind_eq_ok rest
      obtain ⟨_, targetChecked, rest⟩ := bind_eq_ok rest
      split at rest
      · cases rest
      · obtain ⟨_, _, rest⟩ := bind_eq_ok rest
        obtain ⟨_, validated, ending⟩ := bind_eq_ok rest
        cases ending
        have maps := mapNodes_maps mapped
        have domain : ∀ id, id ∈ mapping ↔ id ∈ sourceIds := by
          unfold checkSourceNodes at sourceChecked
          split at sourceChecked
          · cases sourceChecked
          · rename_i known
            split at sourceChecked
            · cases sourceChecked
            · rename_i covered
              simp only [List.any_eq_true, not_exists, not_and, ExtTreeMap.mem_keys] at known
              simp only [List.any_eq_true, not_exists, not_and, ExtTreeSet.mem_toList] at covered
              intro id
              constructor
              · intro member
                simpa using known id member
              · intro member
                simpa using covered id member
        have range : ∀ old new : NodeId, mapping[old]? = some new → new ∈ targetIds := by
          unfold checkTargetNodes at targetChecked
          split at targetChecked
          · cases targetChecked
          · rename_i known
            simp only [List.any_eq_true, not_exists, not_and] at known
            intro old new found
            simpa using known new (mem_values_of_lookup found)
        refine ⟨rfl, sourceIds, targetIds, maps.lookup, maps.injective, sourceRead, targetRead,
          domain, range, ?_⟩
        intro old new found
        exact forM_eq_ok validated (old, new) (ExtTreeMap.mem_toList_iff_getElem?_eq_some.mpr found)

/-- A transform goes from one contract to another. -/
def DefinitionStateTransform.Carries (transform : DefinitionStateTransform)
    (source target : DefinitionDurableStateContract) : Prop :=
  transform.sourceSchema = source.schema ∧ transform.sourceVersion = source.version ∧
    transform.targetSchema = target.schema ∧ transform.targetVersion = target.version

/-- A contract of a mapped node has its counterpart, and what leads from one to the other. -/
structure Covered (transforms : List DefinitionStateTransform) (old new : NodeId)
    (source target : DefinitionDurableStateContract) : Prop where
  kind : target.kind = source.kind
  stateId : target.stateId = source.stateId
  required : source.schema ≠ target.schema ∨ source.version ≠ target.version →
    ∃ transform, transforms.filter (·.appliesTo old new source) = [transform]
  consistent : ∀ transform ∈ transforms, transform.appliesTo old new source = true →
    transform.Carries source target

private theorem validateContract_covered {old new : NodeId}
    {targets : List DefinitionDurableStateContract}
    {contract : DefinitionDurableStateContract}
    (validated : validateContract transforms old new targets contract = .ok ()) :
    ∃ counterpart ∈ targets, Covered transforms old new contract counterpart := by
  unfold validateContract at validated
  split at validated
  · cases validated
  · rename_i counterpart found
    have same := List.find?_some found
    simp only [Bool.decide_and, Bool.and_eq_true, decide_eq_true_eq] at same
    refine ⟨counterpart, List.mem_of_find?_eq_some found, same.1, same.2, ?_, ?_⟩
    · intro differ
      split at validated
      · rw [if_pos differ] at validated
        cases validated
      · rename_i transform only
        exact ⟨transform, only⟩
      · cases validated
    · intro transform member applies
      have among : transform ∈ transforms.filter (·.appliesTo old new contract) :=
        List.mem_filter.mpr ⟨member, applies⟩
      split at validated
      · rename_i none
        rw [none] at among
        cases among
      · rename_i only single
        rw [single, List.mem_singleton] at among
        subst among
        split at validated
        · cases validated
        · rename_i agree
          simp only [not_or, not_not] at agree
          exact agree
      · cases validated

end Accepted

section Cover

variable {serde : Serde} {graph graph' : FlowGraph} {jobName jobName' : JobName}
  {revision revision' : DefinitionRevision} {plan plan' : CompiledExecutionPlan DefinitionIdentity}

/-- No repeat interceptor of a stateless kind is, in manifest order, the first object of a
node kind that bears the identifier of a node with durable state. -/
def FlowGraph.StateUnmasked (graph : FlowGraph) : Prop :=
  ∀ id contract, DeclaresContract graph id contract → ∀ interceptor,
    graph.standings.find? (·.answers id) = some (.intercepting interceptor) →
    interceptor.kind.value ∈ stateKinds

private theorem walkable_of_source_nodes (faithful : serde.Faithful)
    (compiled : graph.compile serde jobName revision = .ok plan)
    (ran : definitionUpgradeSourceNodes serde plan.definition = .ok ids) : graph.Walkable := by
  by_contra unwalkable
  obtain ⟨error, refused⟩ := source_nodes_refused faithful compiled unwalkable
  rw [refused] at ran
  cases ran

/-- The standing that declares a contract. -/
private theorem bears_of_contract (compiled : graph.compile serde jobName revision = .ok plan)
    (flat : graph.Flat) {id : NodeId} {contract : DefinitionDurableStateContract} :
    DeclaresContract graph id contract ↔ ∃ standing contracts, Bears graph.nodesById standing ∧
      standing.id = id ∧ standing.contracts = .ok contracts ∧ contract ∈ contracts := by
  have nodes := (plan_nodes_flat compiled flat).2
  rw [plan_nodesById compiled flat] at nodes
  constructor
  · rintro ⟨node, declares, ⟨rfl, member⟩ | ⟨step, inside, rfl, member⟩⟩
    · have held := (nodes node.id node).mpr ⟨flat.declares.mp declares, rfl⟩
      exact ⟨.declared node, _, .node held, rfl, rfl, member⟩
    · have held := (nodes node.id node).mpr ⟨flat.declares.mp declares, rfl⟩
      exact ⟨.embedded step, _, .step held inside, rfl, rfl, member⟩
  · rintro ⟨standing, contracts, bears, rfl, shown, member⟩
    cases bears with
    | @node owner node held =>
      cases shown
      exact ⟨node, .own ((nodes owner node).mp held).1, .inl ⟨rfl, member⟩⟩
    | @step owner node step held inside =>
      cases shown
      exact ⟨node, .own ((nodes owner node).mp held).1, .inr ⟨step, inside, rfl, member⟩⟩

/-- A contract that is read for a declared identifier is declared for it. -/
private theorem declared_of_read (faithful : serde.Faithful)
    (compiled : graph.compile serde jobName revision = .ok plan) (walkable : graph.Walkable)
    {id : NodeId} (declared : DeclaresId graph id) {contracts : List DefinitionDurableStateContract}
    (read : definitionDurableStateContracts serde plan.definition id = .ok contracts) :
    ∀ contract ∈ contracts, DeclaresContract graph id contract := by
  intro contract member
  obtain ⟨standing, bears, rfl⟩ := bears_of_declared compiled walkable.1 declared
  obtain ⟨found, search, which⟩ := found_of_bears compiled walkable.1 bears
  rw [contracts_walkable faithful compiled walkable, search] at read
  rcases which with rfl | ⟨interceptor, rfl, _⟩
  · exact (bears_of_contract compiled walkable.1).mpr ⟨found, contracts, bears, rfl, read, member⟩
  · change (if interceptor.kind.value ∈ stateKinds then _ else _) = _ at read
    split at read
    · cases read
    · cases read
      cases member

/-- A contract that is declared is read, unless an interceptor masks it. -/
private theorem read_of_declared (faithful : serde.Faithful)
    (compiled : graph.compile serde jobName revision = .ok plan) (walkable : graph.Walkable)
    (unmasked : graph.StateUnmasked) {id : NodeId} {contract : DefinitionDurableStateContract}
    (declared : DeclaresContract graph id contract) {contracts : List DefinitionDurableStateContract}
    (read : definitionDurableStateContracts serde plan.definition id = .ok contracts) :
    contract ∈ contracts := by
  obtain ⟨standing, own, bears, rfl, shown, member⟩ :=
    (bears_of_contract compiled walkable.1).mp declared
  obtain ⟨found, search, which⟩ := found_of_bears compiled walkable.1 bears
  rw [contracts_walkable faithful compiled walkable, search] at read
  rcases which with rfl | ⟨interceptor, rfl, _⟩
  · change found.contracts = _ at read
    rw [shown] at read
    cases read
    exact member
  · have stateful := unmasked _ contract declared interceptor search
    change (if interceptor.kind.value ∈ stateKinds then _ else _) = _ at read
    rw [if_pos stateful] at read
    cases read

/-- An accepted upgrade maps the walked nodes of the source one to one to declared nodes of
the target, all declared nodes unless one is partitioned, and it covers every contract of
a mapped node unless an interceptor masks the node. -/
theorem accepted_upgrades_cover_state (serde : Serde) (faithful : serde.Faithful)
    (graph graph' : FlowGraph) (jobName jobName' : JobName) (revision revision' : DefinitionRevision)
    (plan plan' : CompiledExecutionPlan DefinitionIdentity)
    (compiled : graph.compile serde jobName revision = .ok plan)
    (compiled' : graph'.compile serde jobName' revision' = .ok plan')
    (key : DefinitionUpgradeKey) (label : DefinitionUpgradeRevision)
    (nodes : List DefinitionNodeUpgrade) (transforms : List DefinitionStateTransform)
    (upgrade : DefinitionUpgrade)
    (accepted : DefinitionUpgrade.transformed serde key label plan.definition plan'.definition nodes
      transforms = .ok upgrade) :
    (∀ old old' new : NodeId, upgrade.nodeMapping[old]? = some new →
      upgrade.nodeMapping[old']? = some new → old = old') ∧
    (∀ old new : NodeId, upgrade.nodeMapping[old]? = some new →
      DeclaresId graph old ∧ DeclaresId graph' new) ∧
    ((∀ id, DeclaresId graph id → id ∈ upgrade.nodeMapping) ↔
      ∀ node ∈ graph.nodes, node.isPartitioned = false) ∧
    (graph.StateUnmasked → ∀ old new : NodeId, upgrade.nodeMapping[old]? = some new →
      ∀ contract, DeclaresContract graph old contract →
        ∃ counterpart, DeclaresContract graph' new counterpart ∧
          Covered transforms old new contract counterpart) := by
  obtain ⟨_, sourceIds, targetIds, checked⟩ := transformed_checked accepted
  have walkable := walkable_of_source_nodes faithful compiled checked.sourceRead
  have walkable' := walkable_of_source_nodes faithful compiled' checked.targetRead
  have walked : ∀ {graph : FlowGraph} {id : NodeId}, graph.Flat →
      (∃ node ∈ graph.nodes, id ∈ node.walkedIds) → DeclaresId graph id := by
    rintro graph id flat ⟨node, member, inside⟩
    rw [flat.declaresId]
    rcases FlowNode.mem_walkedIds.mp inside with same | ⟨_, embedded⟩
    · exact ⟨node, member, .inl same⟩
    · exact ⟨node, member, .inr embedded⟩
  obtain ⟨ids, ran, found⟩ := source_nodes_walkable faithful compiled walkable
  obtain ⟨ids', ran', found'⟩ := source_nodes_walkable faithful compiled' walkable'
  obtain rfl : sourceIds = ids := Except.ok.inj (checked.sourceRead.symm.trans ran)
  obtain rfl : targetIds = ids' := Except.ok.inj (checked.targetRead.symm.trans ran')
  have ends : ∀ old new : NodeId, upgrade.nodeMapping[old]? = some new →
      DeclaresId graph old ∧ DeclaresId graph' new := by
    intro old new mapped
    have member := (checked.domain old).mp (Tables.mem_of_lookup mapped)
    exact ⟨walked walkable.1 ((found old).mp member),
      walked walkable'.1 ((found' new).mp (checked.range old new mapped))⟩
  refine ⟨checked.injective, ends, ?_, ?_⟩
  · have exact := source_nodes_iff faithful compiled
    constructor
    · intro total
      refine (exact.mp ⟨sourceIds, ran, fun id => ⟨?_, ?_⟩⟩).2
      · intro member
        exact walked walkable.1 ((found id).mp member)
      · intro declared
        exact (checked.domain id).mp (total id declared)
    · intro whole id declared
      obtain ⟨ids, read, same⟩ := exact.mpr ⟨walkable, whole⟩
      obtain rfl : sourceIds = ids := Except.ok.inj (ran.symm.trans read)
      exact (checked.domain id).mpr ((same id).mpr declared)
  · intro unmasked old new mapped contract declared
    have validated := checked.state old new mapped
    obtain ⟨sources, read, rest⟩ := bind_eq_ok validated
    obtain ⟨targets, read', each⟩ := bind_eq_ok rest
    have member := read_of_declared faithful compiled walkable unmasked declared read
    obtain ⟨counterpart, among, covered⟩ := validateContract_covered (forM_eq_ok each contract member)
    exact ⟨counterpart,
      declared_of_read faithful compiled' walkable' (ends old new mapped).2 read' counterpart among,
      covered⟩

/-- The upgrade of a chunk flow to another reader. -/
def chunkUpgrade : UpgradeResult DefinitionUpgrade :=
  match chunkCompiled (chunkRevisions firstReader none),
    chunkCompiled (chunkRevisions secondReader none) with
  | .ok plan, .ok plan' => DefinitionUpgrade.transformed chunkSerde ⟨"up", Eq.refl true⟩
      ⟨"u1", Eq.refl true⟩ plan.definition plan'.definition
      [⟨⟨"load", Eq.refl true⟩, ⟨"load", Eq.refl true⟩⟩] []
  | _, _ => .error .manifestEncoding

/-- It is accepted, and both contracts of the chunk have their counterparts. -/
theorem chunkUpgrade_covers_state :
    ∃ upgrade, chunkUpgrade = .ok upgrade ∧
      upgrade.nodeMapping[(⟨"load", by decide⟩ : NodeId)]? = some ⟨"load", by decide⟩ ∧
      ∀ contract, DeclaresContract (chunkFlow (chunkRevisions firstReader none))
          ⟨"load", by decide⟩ contract →
        ∃ counterpart, DeclaresContract (chunkFlow (chunkRevisions secondReader none))
            ⟨"load", by decide⟩ counterpart ∧
          Covered [] ⟨"load", by decide⟩ ⟨"load", by decide⟩ contract counterpart := by
  have mapped : chunkUpgrade.toOption.bind
      (·.nodeMapping[(⟨"load", by decide⟩ : NodeId)]?) = some ⟨"load", by decide⟩ := by
    decide +kernel
  cases run : chunkUpgrade with
  | error error =>
    rw [run] at mapped
    cases mapped
  | ok upgrade =>
    rw [run] at mapped
    refine ⟨upgrade, rfl, mapped, ?_⟩
    unfold chunkUpgrade at run
    split at run
    · rename_i plan plan' compiled compiled'
      obtain ⟨_, _, _, covered⟩ := accepted_upgrades_cover_state chunkSerde chunkSerde_faithful _ _ _
        _ _ _ plan plan' compiled compiled' _ _ _ _ upgrade run
      refine covered ?_ _ _ mapped
      intro id contract _ interceptor found
      exact absurd (List.mem_of_find?_eq_some found) (chunkFlow_unintercepted _ interceptor)
    · cases run

/-- A repeated tasklet whose interceptor takes the name of the chunk step behind it. -/
def maskFlow (version : StateSchemaVersion) : FlowGraph :=
  let first : NodeId := ⟨"audit", Eq.refl true⟩
  let second : NodeId := ⟨"load", Eq.refl true⟩
  let any : ExitPattern := ⟨"*", Eq.refl true⟩
  let schema : StateSchemaId := ⟨"orders", Eq.refl true⟩
  let one : StateSchemaVersion := 1
  let start : StartControls := ⟨StartLimit.unrestricted, false, .restartable⟩
  let level : RepeatLevel :=
    { id := ⟨"poll", Eq.refl true⟩
      policy := ⟨⟨"fixed", Eq.refl true⟩, ⟨"v1", Eq.refl true⟩, ⟨"three", Eq.refl true⟩⟩
      interceptors := [⟨second, ⟨"decision", Eq.refl true⟩, ⟨"v1", Eq.refl true⟩⟩]
      state := ⟨schema, one⟩
      fewInterceptors := by decide
      distinctInterceptors := by decide }
  let audit : StepNode :=
    { id := first, stepName := first, components := .tasklet ⟨"v1", Eq.refl true⟩, start,
      fault := none, listeners := [],
      repeatDefinition := some ⟨level, [], by decide, by decide⟩ }
  let load : StepNode :=
    { id := second
      stepName := second
      components := .chunk 10
        { reader := ⟨"rows-v1", Eq.refl true⟩
          processor := ⟨"map-v1", Eq.refl true⟩
          writer := ⟨"sink-v1", Eq.refl true⟩
          checkpoint := ⟨"mark-v1", Eq.refl true⟩
          restart := ⟨schema, version, schema, one, .atLeastOnce, .finishChunk⟩
          streams := ∅
          completionPolicy := none }
      start
      fault := none
      listeners := []
      repeatDefinition := none }
  { entry := some first
    nodes := [.step audit, .step load]
    transitions := [⟨first, any, .node second⟩, ⟨second, any, .terminal .complete⟩]
    nestedFlows := []
    scopedComponents := []
    parameterIncrementer := none
    jobRestartPolicy := .restartable }

def maskManifest (version : StateSchemaVersion) : Json :=
  match (compileScope maxFlowCompositionDepth (maskFlow version)).run .default with
  | .ok (scope, compiler) => compiler.manifest fanJob scope none
  | .error _ => .null

def firstVersion : StateSchemaVersion := 1

def secondVersion : StateSchemaVersion := 2

/-- The serializer and the digest on the manifests of both versions. -/
def maskSerde : Serde where
  toVec document :=
    if document = maskManifest firstVersion ∨ document = maskManifest secondVersion then
      some document.toBytes
    else none
  fromSlice bytes :=
    if bytes = (maskManifest firstVersion).toBytes then some (maskManifest firstVersion)
    else if bytes = (maskManifest secondVersion).toBytes then some (maskManifest secondVersion)
    else none
  sha256 bytes :=
    if bytes = (maskManifest firstVersion).toBytes then
      0x843508924897e48db07a05eca5fc4ee30a305f073dc6558b92903d9ffcbbb9bb
    else if bytes = (maskManifest secondVersion).toBytes then
      0xecc64cda1c6f301324bc186abebcb3cabeacbd9190a0030ba19e2801a698f2ac
    else 0

private theorem maskSerde_faithful : maskSerde.Faithful := by
  have apart : (maskManifest firstVersion).toBytes ≠ (maskManifest secondVersion).toBytes := by
    decide +kernel
  intro document parsed bytes _ encoded read
  simp only [maskSerde, Option.ite_none_right_eq_some, Option.some.injEq] at encoded
  obtain ⟨known, rfl⟩ := encoded
  simp only [maskSerde] at read
  rcases known with rfl | rfl
  · rw [if_pos rfl] at read
    exact (Option.some.inj read).symm
  · rw [if_neg (Ne.symm apart), if_pos rfl] at read
    exact (Option.some.inj read).symm

/-- Both nodes mapped to themselves. -/
def maskMapping : List DefinitionNodeUpgrade :=
  [⟨⟨"audit", Eq.refl true⟩, ⟨"audit", Eq.refl true⟩⟩, ⟨⟨"load", Eq.refl true⟩, ⟨"load", Eq.refl true⟩⟩]

def maskCompiled (version : StateSchemaVersion) :
    Except PlanError (CompiledExecutionPlan DefinitionIdentity) :=
  (maskFlow version).compile maskSerde fanJob ⟨"r1", Eq.refl true⟩

/-- The upgrade to another checkpoint version, without a transform. -/
def maskUpgrade : UpgradeResult DefinitionUpgrade :=
  match maskCompiled firstVersion, maskCompiled secondVersion with
  | .ok plan, .ok plan' => DefinitionUpgrade.transformed maskSerde ⟨"up", Eq.refl true⟩
      ⟨"u1", Eq.refl true⟩ plan.definition plan'.definition maskMapping []
  | _, _ => .error .manifestEncoding

/-- The chunk declares one checkpoint contract, that of the version. -/
private theorem maskFlow_checkpoint {version : StateSchemaVersion}
    {contract : DefinitionDurableStateContract}
    (declared : DeclaresContract (maskFlow version) ⟨"load", by decide⟩ contract)
    (checkpoint : contract.kind = .checkpoint) : contract.version = version := by
  have flat : (maskFlow version).Flat := ⟨rfl, by simp [maskFlow, FlowNode.Flat]⟩
  obtain ⟨node, declares, which⟩ := declared
  have member := flat.declares.mp declares
  simp only [maskFlow, List.mem_cons, List.not_mem_nil, or_false] at member
  rcases member with rfl | rfl
  · simp only [FlowNode.id, FlowNode.embeddedSteps, List.not_mem_nil, false_and, exists_false,
      or_false] at which
    exact absurd (congrArg Token.value which.1) (by decide)
  · simp only [FlowNode.embeddedSteps, List.not_mem_nil, false_and, exists_false, or_false,
      FlowNode.contracts, StepNode.contracts, StepComponents.contracts, StepNode.repeatLevels,
      Option.map_none, Option.getD_none, List.map_nil, List.append_nil, List.mem_cons] at which
    rcases which.2 with rfl | rfl
    · rfl
    · cases checkpoint

/-- A masked chunk step changes its checkpoint version without a transform. -/
theorem masked_state_is_uncovered : ¬ ∀ (serde : Serde) (_ : serde.Faithful)
    (graph graph' : FlowGraph) (jobName jobName' : JobName) (revision revision' : DefinitionRevision)
    (plan plan' : CompiledExecutionPlan DefinitionIdentity),
    graph.compile serde jobName revision = .ok plan →
    graph'.compile serde jobName' revision' = .ok plan' →
    ∀ key label nodes transforms upgrade, DefinitionUpgrade.transformed serde key label
        plan.definition plan'.definition nodes transforms = .ok upgrade →
      ∀ old new : NodeId, upgrade.nodeMapping[old]? = some new →
      ∀ contract, DeclaresContract graph old contract →
        ∃ counterpart, DeclaresContract graph' new counterpart ∧
          Covered transforms old new contract counterpart := by
  intro cover
  have mapped : maskUpgrade.toOption.bind
      (·.nodeMapping[(⟨"load", by decide⟩ : NodeId)]?) = some ⟨"load", by decide⟩ := by
    decide +kernel
  cases run : maskUpgrade with
  | error error =>
    rw [run] at mapped
    cases mapped
  | ok upgrade =>
    rw [run] at mapped
    unfold maskUpgrade at run
    split at run
    · rename_i plan plan' compiled compiled'
      have declared : DeclaresContract (maskFlow firstVersion) ⟨"load", by decide⟩
          ⟨.checkpoint, none, ⟨"orders", by decide⟩, firstVersion⟩ := by
        refine ⟨_, .own (List.mem_cons_of_mem _ List.mem_cons_self), .inl ⟨rfl, ?_⟩⟩
        exact List.mem_cons_self
      obtain ⟨counterpart, declared', covered⟩ := cover maskSerde maskSerde_faithful _ _ _ _ _ _ plan
        plan' compiled compiled' _ _ _ _ upgrade run _ _ mapped _ declared
      have version := maskFlow_checkpoint declared' covered.kind
      obtain ⟨transform, only⟩ := covered.required (.inr (by rw [version]; decide))
      cases only
    · cases run

end Cover

end OxideBatch.Plan
