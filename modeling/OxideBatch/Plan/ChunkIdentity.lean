import OxideBatch.Plan.ChunkChange

/-! The entries of a manifest are found by identifier, so a change that reaches the
declaration of a chunk step reaches the canonical manifest. -/

namespace OxideBatch.Plan

open OxideBatch.Core Program Agreement
open Json (member? hasMember insertMember)
open Std (ExtTreeMap ExtTreeSet)

section Entries

variable {compiler : AdvancedCompiler}

/-- Nested flows take the place of their owners, all other entries are nodes. -/
theorem nodeValues_lookup (compiler : AdvancedCompiler) (id : NodeId) :
    (∀ record, compiler.nestedRecords[id]? = some record →
      compiler.nodeValues[id]? = some (nestedManifest id record)) ∧
    (compiler.nestedRecords[id]? = none → compiler.nodeValues[id]? =
      compiler.nodes[id]?.map fun node => advancedNodeManifest compiler.splitBranchScopes node
        (decisionSequence (assignDecisionSequences compiler.transitions) id)) := by
  have general : ∀ (records : List (NodeId × NestedRecord)) (held : NodeMap Json),
      (records.map (·.1)).Nodup →
      (∀ record ∈ records, (records.foldl (fun values record =>
        values.insert record.1 (nestedManifest record.1 record.2)) held)[record.1]? =
          some (nestedManifest record.1 record.2)) ∧
      ∀ id, id ∉ records.map (·.1) → (records.foldl (fun values record =>
        values.insert record.1 (nestedManifest record.1 record.2)) held)[id]? = held[id]? := by
    intro records
    induction records with
    | nil =>
      intro held _
      exact ⟨by simp, fun _ _ => rfl⟩
    | cons first records ih =>
      intro held distinct
      obtain ⟨away, distinct'⟩ := List.nodup_cons.mp distinct
      obtain ⟨inside, outside⟩ := ih (held.insert first.1 (nestedManifest first.1 first.2)) distinct'
      rw [List.foldl_cons]
      constructor
      · intro record member
        rcases List.mem_cons.mp member with rfl | later
        · rw [outside _ away, getElem?_insert_self]
        · exact inside record later
      · intro id foreign
        rw [List.map_cons, List.mem_cons, not_or] at foreign
        rw [outside id foreign.2, getElem?_insert_ne (Ne.symm foreign.1)]
  have keys : compiler.nestedRecords.toList.map Prod.fst = compiler.nestedRecords.keys :=
    ExtTreeMap.map_fst_toList_eq_keys
  obtain ⟨inside, outside⟩ := general compiler.nestedRecords.toList
    (compiler.nodes.map fun id node => advancedNodeManifest compiler.splitBranchScopes node
      (decisionSequence (assignDecisionSequences compiler.transitions) id))
    (by rw [keys]; exact ExtTreeMap.nodup_keys)
  constructor
  · intro record found
    exact inside (id, record) (ExtTreeMap.mem_toList_iff_getElem?_eq_some.mpr found)
  · intro absent
    have foreign : id ∉ compiler.nestedRecords.toList.map (·.1) := by
      rw [keys, ExtTreeMap.mem_keys]
      exact Tables.not_mem_iff_lookup.mpr absent
    refine (outside id foreign).trans ?_
    rw [ExtTreeMap.getElem?_map]

theorem nodeValues_node (rooted : Rooted compiler) {id : NodeId} {node : FlowNode FlowGraph}
    (found : compiler.nodes[id]? = some node) :
    compiler.nodeValues[id]? = some (advancedNodeManifest compiler.splitBranchScopes node
      (decisionSequence (assignDecisionSequences compiler.transitions) id)) := by
  have absent : compiler.nestedRecords[id]? = none := by
    by_contra present
    obtain ⟨record, held⟩ := Option.ne_none_iff_exists'.mp present
    rw [(rooted.records id record held).2] at found
    cases found
  rw [(nodeValues_lookup compiler id).2 absent, found]
  rfl

theorem asObject_advancedNodeValue (scopes : BranchScopes) (node : FlowNode FlowGraph) :
    (advancedNodeValue scopes node).asObject ≠ none := by
  have step : ∀ step : StepNode, step.manifestValue.asObject ≠ none := by
    intro step
    unfold StepNode.manifestValue
    cases step.repeatDefinition with
    | none => simp [Json.asObject]
    | some definition => exact Json.asObject_withMember (by simp [Json.asObject]) _ _
  cases node with
  | step node => exact step node
  | split node => simp [advancedNodeValue, splitManifest, Json.asObject]
  | decision _ | nestedJob _ | customLeaf _ | join _ | partitionedStep _ =>
    simp [advancedNodeValue, FlowNode.manifestValue, DecisionNode.manifestValue,
      NestedJobNode.manifestValue, CustomLeafNode.manifestValue, JoinNode.manifestValue,
      PartitionedStepNode.manifestValue, Json.asObject]

/-- A decision sequence is a member of its own. -/
theorem get?_advancedNodeManifest (scopes : BranchScopes) (node : FlowNode FlowGraph)
    (sequence : Option Nat) {key : String} (other : key ≠ "decision_sequence") :
    (advancedNodeManifest scopes node sequence).get? key = (advancedNodeValue scopes node).get? key := by
  cases sequence with
  | none => rfl
  | some place =>
    unfold advancedNodeManifest
    rw [Json.get?_withMember (asObject_advancedNodeValue scopes node), if_neg (Ne.symm other)]

theorem get?_step (step : StepNode) {key : String} (other : key ≠ "repeat") :
    step.manifestValue.get? key = member? key
      [("id", text step.id),
       ("kind", .string "step"),
       ("listeners", listenersManifest step.listeners),
       ("policy", policyManifest step.fault),
       ("start", startControlsManifest step.start),
       ("step", .object
        [("declaration", step.components.manifestValue),
         ("kind", .string step.components.kindName),
         ("name", text step.stepName)])] := by
  unfold StepNode.manifestValue
  cases step.repeatDefinition with
  | none => rfl
  | some definition =>
    dsimp only
    rw [Json.get?_withMember (by simp [Json.asObject]), if_neg (Ne.symm other)]
    rfl

theorem get?_id (scopes : BranchScopes) (node : FlowNode FlowGraph) :
    (advancedNodeValue scopes node).get? "id" = some (text node.id) := by
  cases node with
  | step node =>
    refine (get?_step node (by decide)).trans ?_
    simp [FlowNode.id]
  | split node => simp [advancedNodeValue, splitManifest, FlowNode.id]
  | decision _ | nestedJob _ | customLeaf _ | join _ | partitionedStep _ =>
    simp [advancedNodeValue, FlowNode.manifestValue, DecisionNode.manifestValue,
      NestedJobNode.manifestValue, CustomLeafNode.manifestValue, JoinNode.manifestValue,
      PartitionedStepNode.manifestValue, FlowNode.id]

/-- Every entry carries the identifier it stands under. -/
private theorem nodeValues_id (rooted : Rooted compiler) {id : NodeId} {value : Json}
    (found : compiler.nodeValues[id]? = some value) : value.get? "id" = some (text id) := by
  cases held : compiler.nestedRecords[id]? with
  | some record =>
    rw [(nodeValues_lookup compiler id).1 record held] at found
    cases found
    simp [nestedManifest]
  | none =>
    rw [(nodeValues_lookup compiler id).2 held] at found
    cases here : compiler.nodes[id]? with
    | none =>
      rw [here] at found
      cases found
    | some node =>
      rw [here] at found
      cases found
      rw [get?_advancedNodeManifest _ _ _ (by decide), get?_id, (rooted.nodes id node here).1]

/-- Equal lists of entries with identifiers hold the same entry under each of them. -/
private theorem lookup_of_values {values values' : NodeMap Json}
    (named : ∀ (id : NodeId) value, values[id]? = some value → value.get? "id" = some (text id))
    (named' : ∀ (id : NodeId) value, values'[id]? = some value → value.get? "id" = some (text id))
    (same : values.values = values'.values) {id : NodeId} (found : values[id]? = some value) :
    values'[id]? = some value := by
  have member : value ∈ values.values := by
    rw [Tables.values_eq]
    exact List.mem_map.mpr ⟨(id, value), ExtTreeMap.mem_toList_iff_getElem?_eq_some.mpr found, rfl⟩
  rw [same] at member
  obtain ⟨other, found'⟩ := mem_values member
  have one := named id value found
  rw [named' other value found'] at one
  rw [← text_injective (Option.some.inj one)]
  exact found'

end Entries

section Changed

variable {old new : ChunkComponentRevisions}

theorem getElem?_middle {α : Type} (before : List α) (value : α) (after : List α) :
    (before ++ value :: after)[before.length]? = some value := by
  simp

/-- Linear branches with a changed step have other manifests. -/
private theorem sameInManifest_of_steps {earlier later : List StepNode} {step step' : StepNode}
    (change : StepChange old new step step')
    (same : (earlier ++ step :: later).map StepNode.manifestValue =
      (earlier ++ step' :: later).map StepNode.manifestValue) : SameInManifest old new := by
  have here := congrArg (fun values => values[earlier.length]?) same
  simp only [List.getElem?_map, getElem?_middle, Option.map_some, Option.some.injEq] at here
  exact change.sameInManifest here

theorem NodeChange.sameInManifest_advanced {scopes scopes' : BranchScopes}
    {sequence sequence' : Option Nat} (change : NodeChange old new node node')
    (straight : ∀ split, node = .split split → ∀ (ordinal : Nat) (branch : SplitBranch FlowGraph),
      split.branches[ordinal]? = some branch →
      scopes[(split.id, ordinal)]?.isSome = branch.flow.isSome)
    (straight' : ∀ split, node' = .split split → ∀ (ordinal : Nat) (branch : SplitBranch FlowGraph),
      split.branches[ordinal]? = some branch →
      scopes'[(split.id, ordinal)]?.isSome = branch.flow.isSome)
    (same : advancedNodeManifest scopes node sequence = advancedNodeManifest scopes' node' sequence') :
    SameInManifest old new := by
  have member : ∀ key, key ≠ "decision_sequence" →
      (advancedNodeValue scopes node).get? key = (advancedNodeValue scopes' node').get? key := by
    intro key other
    rw [← get?_advancedNodeManifest scopes node sequence other, same,
      get?_advancedNodeManifest scopes' node' sequence' other]
  cases change with
  | step change =>
    have here := member "step" (by decide)
    simp only [advancedNodeValue, FlowNode.manifestValue, get?_step _ (show "step" ≠ "repeat" by decide)]
      at here
    simp at here
    cases change with
    | of size declared =>
      have components := here.1
      rw [declared] at components
      exact sameInManifest_of_chunk components
  | worker change =>
    have here := member "worker" (by decide)
    simp [advancedNodeValue, FlowNode.manifestValue, PartitionedStepNode.manifestValue] at here
    exact change.sameInManifest here
  | @linear split branch before after earlier later step step' branches linear steps change =>
    have here := member "branches" (by decide)
    simp [advancedNodeValue, splitManifest] at here
    have place := congrArg (fun values => values[before.length]?) here
    have unscoped : scopes[(split.id, before.length)]? = none := by
      have absent := straight split rfl before.length branch
        (by rw [branches]; exact getElem?_middle _ _ _)
      rw [linear] at absent
      exact Option.isNone_iff_eq_none.mp (Option.isSome_eq_false_iff.mp absent)
    have unscoped' : scopes'[(split.id, before.length)]? = none := by
      have absent := straight' _ rfl before.length _ (getElem?_middle _ _ _)
      rw [linear] at absent
      exact Option.isNone_iff_eq_none.mp (Option.isSome_eq_false_iff.mp absent)
    rw [branches] at place
    simp only [List.getElem?_map, List.getElem?_zipIdx, getElem?_middle, Option.map_some,
      Option.some.injEq, branchManifest, Nat.zero_add, unscoped, unscoped'] at place
    simp only [Json.object.injEq, List.cons.injEq, Prod.mk.injEq, true_and, and_true,
      Json.array.injEq] at place
    rw [steps] at place
    exact sameInManifest_of_steps change place

theorem NodeChange.sameInManifest_base (change : NodeChange old new node node')
    (same : node.manifestValue = node'.manifestValue) : SameInManifest old new := by
  cases change with
  | step change => exact change.sameInManifest same
  | worker change =>
    have here := congrArg (fun document => document.get? "worker") same
    simp [FlowNode.manifestValue, PartitionedStepNode.manifestValue] at here
    exact change.sameInManifest here
  | @linear split branch before after earlier later step step' branches _ steps change =>
    have here := congrArg (fun document => document.get? "branches") same
    simp only [FlowNode.manifestValue, splitManifest, Json.get?_object, Json.member?_cons, if_true,
      Option.some.injEq, Json.array.injEq] at here
    have place := congrArg (fun values => values[before.length]?) here
    rw [branches] at place
    simp only [List.getElem?_map, getElem?_middle, Option.map_some, Option.some.injEq,
      SplitBranch.manifestValue, Json.array.injEq] at place
    rw [steps] at place
    exact sameInManifest_of_steps change place

end Changed

section Documents

variable {serde : Serde} {graph graph' : FlowGraph} {jobName : JobName}
  {revision : DefinitionRevision} {plan plan' : CompiledExecutionPlan DefinitionIdentity}
  {old new : ChunkComponentRevisions}

theorem Identified.document_eq (faithful : serde.Faithful)
    (identified : Identified serde jobName document definition)
    (identified' : Identified serde jobName document' definition')
    (integral : document.containsFloat = false) (integral' : document'.containsFloat = false)
    (same : definition.canonicalManifest = definition'.canonicalManifest) : document = document' := by
  have one := (identified.read faithful integral).1
  have two := (identified'.read faithful integral').1
  rw [same, two] at one
  exact (Option.some.inj one).symm

theorem AdvancedPlan.straight (advanced : AdvancedPlan serde graph jobName plan compiler scope)
    {node : FlowNode FlowGraph} (found : compiler.nodes[node.id]? = some node) :
    ∀ split, node = .split split → ∀ (ordinal : Nat) (branch : SplitBranch FlowGraph),
      split.branches[ordinal]? = some branch →
      compiler.splitBranchScopes[(split.id, ordinal)]?.isSome = branch.flow.isSome := by
  rintro split rfl
  exact advanced.rooted.1.branches split.id split found

/-- Advanced plans with one manifest have the same revisions in it. -/
private theorem sameInManifest_of_advanced
    (advanced : AdvancedPlan serde graph jobName plan compiler scope)
    (advanced' : AdvancedPlan serde graph' jobName plan' compiler' scope')
    (change : Change old new graph graph')
    (same : compiler.manifest jobName scope graph.parameterIncrementer =
      compiler'.manifest jobName scope' graph'.parameterIncrementer) : SameInManifest old new := by
  obtain ⟨members, shown, shape⟩ := advancedMembers compiler jobName scope graph.parameterIncrementer
  obtain ⟨members', shown', shape'⟩ :=
    advancedMembers compiler' jobName scope' graph'.parameterIncrementer
  rw [shown, shown'] at same
  have values : compiler.nodeValues.values = compiler'.nodeValues.values := by
    have nodes := shape.nodes
    rw [Json.object.inj same, shape'.nodes] at nodes
    exact (Json.array.inj (Option.some.inj nodes)).symm
  obtain ⟨node, node', declared, declared', changed⟩ := change.declares
  have found := (advanced.installed node.id node).mpr ⟨declared, rfl⟩
  have found' := (advanced'.installed node'.id node').mpr ⟨declared', rfl⟩
  have entry := nodeValues_node advanced.rooted.1 found
  have entry' := nodeValues_node advanced'.rooted.1 found'
  have moved := lookup_of_values (fun _ _ => nodeValues_id advanced.rooted.1)
    (fun _ _ => nodeValues_id advanced'.rooted.1) values entry
  rw [changed.id, entry'] at moved
  exact changed.sameInManifest_advanced (advanced.straight found) (advanced'.straight found')
    (Option.some.inj moved).symm

private theorem sameInManifest_of_base
    (base : BasePlan serde graph jobName revision plan entry localScale outgoing)
    (base' : BasePlan serde graph' jobName revision plan' entry' localScale' outgoing')
    (change : Change old new graph graph')
    (same : baseDocument jobName entry plan.nodes outgoing localScale =
      baseDocument jobName entry' plan'.nodes outgoing' localScale') : SameInManifest old new := by
  have nodes := congrArg (fun document => document.get? "nodes") same
  simp only [baseDocument, flowManifest, Json.get?_object, Json.member?_cons] at nodes
  simp only [String.reduceEq, if_false, if_true, Option.some.injEq, Json.array.injEq] at nodes
  -- entries by identifier, as in the advanced format
  let values := plan.nodes.map fun _ node => node.manifestValue
  let values' := plan'.nodes.map fun _ node => node.manifestValue
  have listed : ∀ nodes : NodeMap (FlowNode FlowGraph),
      (nodes.map fun _ node => node.manifestValue).values =
        nodes.values.map FlowNode.manifestValue := by
    intro nodes
    rw [Tables.values_eq, Tables.values_eq, ExtTreeMap.toList_map, List.map_map, List.map_map]
    rfl
  have plainId : ∀ node : FlowNode FlowGraph, node.manifestValue.get? "id" = some (text node.id) := by
    intro node
    cases node with
    | split node => simp [FlowNode.manifestValue, splitManifest, FlowNode.id]
    | step node => exact get?_id ∅ (.step node)
    | decision node => exact get?_id ∅ (.decision node)
    | nestedJob node => exact get?_id ∅ (.nestedJob node)
    | customLeaf node => exact get?_id ∅ (.customLeaf node)
    | join node => exact get?_id ∅ (.join node)
    | partitionedStep node => exact get?_id ∅ (.partitionedStep node)
  have named : ∀ nodes : NodeMap (FlowNode FlowGraph),
      (∀ (id : NodeId) node, nodes[id]? = some node → node.id = id) →
      ∀ (id : NodeId) value, (nodes.map fun _ node => node.manifestValue)[id]? = some value →
        value.get? "id" = some (text id) := by
    intro nodes keyed id value found
    rw [ExtTreeMap.getElem?_map] at found
    cases here : nodes[id]? with
    | none =>
      rw [here] at found
      cases found
    | some node =>
      rw [here] at found
      cases found
      rw [plainId, keyed id node here]
  obtain ⟨node, node', declared, declared', changed⟩ := change.declares
  have found := (base.declared node.id node).mpr ⟨declared, rfl⟩
  have found' := (base'.declared node'.id node').mpr ⟨declared', rfl⟩
  have here : values[node.id]? = some node.manifestValue := by
    simp only [values]
    rw [ExtTreeMap.getElem?_map, found]
    rfl
  have moved : values'[node.id]? = some node.manifestValue := by
    refine lookup_of_values (named plan.nodes ?_) (named plan'.nodes ?_) ?_ here
    · exact fun id node held => ((base.declared id node).mp held).2
    · exact fun id node held => ((base'.declared id node).mp held).2
    · rw [listed, listed]
      exact nodes
  simp only [values'] at moved
  rw [ExtTreeMap.getElem?_map, changed.id, found'] at moved
  exact changed.sameInManifest_base (Option.some.inj moved).symm

/-- Base and advanced manifests differ in their format. -/
private theorem base_ne_advanced
    (base : BasePlan serde graph jobName revision plan entry localScale outgoing)
    (compiler : AdvancedCompiler) (scope : CompiledFlowScope)
    (incrementer : Option ParameterIncrementerIdentity) :
    baseDocument jobName entry plan.nodes outgoing localScale ≠
      compiler.manifest jobName scope incrementer := by
  intro same
  obtain ⟨members, shown, shape⟩ := advancedMembers compiler jobName scope incrementer
  rw [shown] at same
  have format := congrArg (fun document => document.get? "format") same
  simp only [baseDocument, flowManifest, Json.get?_object, shape.format] at format
  cases localScale <;>
    simp [number, manifestFormatAdvancedFlow, manifestFormatFlow, manifestFormatLocalScale] at format

end Documents

section Main

/-- A changed chunk step changes the canonical manifest exactly when a revision that the
flow manifest projects has changed: a component, a schema or its version, the delivery
mode, or the in-flight policy. Streams and the completion policy are not projected. -/
theorem chunk_manifests_differ_iff (serde : Serde) (faithful : serde.Faithful)
    (graph graph' : FlowGraph) (jobName : JobName) (revision : DefinitionRevision)
    (old new : ChunkComponentRevisions) (plan plan' : CompiledExecutionPlan DefinitionIdentity)
    (change : Change old new graph graph')
    (compiled : graph.compile serde jobName revision = .ok plan)
    (compiled' : graph'.compile serde jobName revision = .ok plan') :
    (plan.definition.canonicalManifest ≠ plan'.definition.canonicalManifest ↔
      ¬ (old.reader = new.reader ∧ old.processor = new.processor ∧ old.writer = new.writer ∧
        old.checkpoint = new.checkpoint ∧ old.restart = new.restart)) ∧
      plan.definition.manifestDigest = serde.sha256 plan.definition.canonicalManifest ∧
      plan'.definition.manifestDigest = serde.sha256 plan'.definition.canonicalManifest := by
  have forth : SameInManifest old new →
      plan.definition.canonicalManifest = plan'.definition.canonicalManifest := by
    intro same
    have similar : Similar StepNode.Like graph graph' :=
      change.similar StepNode.Like.refl fun _ _ changed => changed.like same
    have agree : Agree (PlanLike StepNode.Like) (graph.compile serde jobName revision)
        (graph'.compile serde jobName revision) := compile_alike (fun _ _ alike => alike) similar
    rw [compiled, compiled'] at agree
    obtain ⟨nodes, rfl, _⟩ := agree
    rfl
  have back : plan.definition.canonicalManifest = plan'.definition.canonicalManifest →
      SameInManifest old new := by
    intro same
    rcases compile_cases compiled with ⟨compiler, scope, advanced⟩ | ⟨entry, localScale, outgoing, base⟩
    · rcases compile_cases compiled' with ⟨compiler', scope', advanced'⟩ |
        ⟨entry', localScale', outgoing', base'⟩
      · exact sameInManifest_of_advanced advanced advanced' change
          (advanced.identified.document_eq faithful advanced'.identified advanced.integral
            advanced'.integral same)
      · exact absurd (base'.identified.document_eq faithful advanced.identified
          (Json.containsFloat_of_every _ base'.every) advanced.integral same.symm)
          (base_ne_advanced base' _ _ _)
    · rcases compile_cases compiled' with ⟨compiler', scope', advanced'⟩ |
        ⟨entry', localScale', outgoing', base'⟩
      · exact absurd (base.identified.document_eq faithful advanced'.identified
          (Json.containsFloat_of_every _ base.every) advanced'.integral same)
          (base_ne_advanced base _ _ _)
      · exact sameInManifest_of_base base base' change
          (base.identified.document_eq faithful base'.identified
            (Json.containsFloat_of_every _ base.every) (Json.containsFloat_of_every _ base'.every)
            same)
  have digest : ∀ {graph : FlowGraph} {plan : CompiledExecutionPlan DefinitionIdentity},
      graph.compile serde jobName revision = .ok plan →
      plan.definition.manifestDigest = serde.sha256 plan.definition.canonicalManifest := by
    intro graph plan compiled
    rcases compile_cases compiled with ⟨_, _, advanced⟩ | ⟨_, _, _, base⟩
    · exact advanced.identified.digest
    · exact base.identified.digest
  exact ⟨not_congr ⟨back, forth⟩, digest compiled, digest compiled'⟩

/-- The revisions of a chunk step whose reader and completion policy vary. -/
def chunkRevisions (reader : ComponentRevision) (policy : Option ComponentRevision) :
    ChunkComponentRevisions :=
  let schema : StateSchemaId := ⟨"orders", Eq.refl true⟩
  let version : StateSchemaVersion := 1
  { reader
    processor := ⟨"map-v1", Eq.refl true⟩
    writer := ⟨"sink-v1", Eq.refl true⟩
    checkpoint := ⟨"mark-v1", Eq.refl true⟩
    restart := ⟨schema, version, schema, version, .atLeastOnce, .finishChunk⟩
    streams := ∅
    completionPolicy := policy }

def chunkStep (revisions : ChunkComponentRevisions) : StepNode :=
  { id := ⟨"load", Eq.refl true⟩
    stepName := ⟨"load", Eq.refl true⟩
    components := .chunk 10 revisions
    start := ⟨StartLimit.unrestricted, false, .restartable⟩
    fault := none
    listeners := []
    repeatDefinition := none }

/-- A flow of one chunk step. -/
def chunkFlow (revisions : ChunkComponentRevisions) : FlowGraph :=
  let step := chunkStep revisions
  { entry := some step.id
    nodes := [.step step]
    transitions := [⟨step.id, ⟨"*", Eq.refl true⟩, .terminal .complete⟩]
    nestedFlows := []
    scopedComponents := []
    parameterIncrementer := none
    jobRestartPolicy := .restartable }

def firstReader : ComponentRevision := ⟨"rows-v1", Eq.refl true⟩

def secondReader : ComponentRevision := ⟨"rows-v2", Eq.refl true⟩

def fullPolicy : ComponentRevision := ⟨"full-v1", Eq.refl true⟩

def chunkManifest (reader : ComponentRevision) : Json :=
  let step := chunkStep (chunkRevisions reader none)
  flowManifest fanJob step.id ((∅ : NodeMap (FlowNode FlowGraph)).insert step.id (.step step))
    ((∅ : Edges).insert step.id [⟨step.id, ⟨"*", Eq.refl true⟩, .terminal .complete⟩]) false

/-- The serializer and the digest on the manifests of both readers. -/
def chunkSerde : Serde where
  toVec document :=
    if document = chunkManifest firstReader ∨ document = chunkManifest secondReader then
      some document.toBytes
    else none
  fromSlice bytes :=
    if bytes = (chunkManifest firstReader).toBytes then some (chunkManifest firstReader)
    else if bytes = (chunkManifest secondReader).toBytes then some (chunkManifest secondReader)
    else none
  sha256 bytes :=
    if bytes = (chunkManifest firstReader).toBytes then
      0xfe524263859f5287756d7168ba2974d0976f70f9833b6502c840453222194ba9
    else if bytes = (chunkManifest secondReader).toBytes then
      0xe7016274bb7bd27942b431e608a2a0fbdef8df37ff33399bd57eb72080276805
    else 0

def chunkCompiled (revisions : ChunkComponentRevisions) :
    Except PlanError (CompiledExecutionPlan DefinitionIdentity) :=
  (chunkFlow revisions).compile chunkSerde fanJob ⟨"r1", Eq.refl true⟩

theorem chunkSerde_faithful : chunkSerde.Faithful := by
  have apart : (chunkManifest firstReader).toBytes ≠ (chunkManifest secondReader).toBytes := by
    decide +kernel
  intro document parsed bytes _ encoded read
  simp only [chunkSerde, Option.ite_none_right_eq_some, Option.some.injEq] at encoded
  obtain ⟨known, rfl⟩ := encoded
  simp only [chunkSerde] at read
  rcases known with rfl | rfl
  · rw [if_pos rfl] at read
    exact (Option.some.inj read).symm
  · rw [if_neg (Ne.symm apart), if_pos rfl] at read
    exact (Option.some.inj read).symm

private theorem chunkFlow_change (old new : ChunkComponentRevisions) :
    Change old new (chunkFlow old) (chunkFlow new) :=
  @Change.node old new (chunkFlow old) [] [] _ _ rfl
    (.step (.of (chunkStep old) 10 rfl))

theorem plan_of_isOk {result : Except PlanError (CompiledExecutionPlan DefinitionIdentity)}
    (ok : result.isOk = true) : ∃ plan, result = .ok plan := by
  cases result with
  | error failure => cases ok
  | ok plan => exact ⟨plan, rfl⟩

/-- Another reader is another manifest. -/
theorem chunk_manifests_differ_reader :
    ∃ plan plan', chunkCompiled (chunkRevisions firstReader none) = .ok plan ∧
      chunkCompiled (chunkRevisions secondReader none) = .ok plan' ∧
      plan.definition.canonicalManifest ≠ plan'.definition.canonicalManifest := by
  obtain ⟨plan, compiled⟩ :=
    plan_of_isOk (show (chunkCompiled (chunkRevisions firstReader none)).isOk = true by
      decide +kernel)
  obtain ⟨plan', compiled'⟩ :=
    plan_of_isOk (show (chunkCompiled (chunkRevisions secondReader none)).isOk = true by
      decide +kernel)
  refine ⟨plan, plan', compiled, compiled', ?_⟩
  refine (chunk_manifests_differ_iff chunkSerde chunkSerde_faithful _ _ fanJob ⟨"r1", by decide⟩ _ _
    plan plan' (chunkFlow_change _ _) compiled compiled').1.mpr ?_
  intro same
  exact absurd same.1 (by decide)

/-- The completion policy is not in the manifest, so another one goes unnoticed. -/
theorem chunk_policy_unnoticed : ¬ ∀ (serde : Serde) (_ : serde.Faithful) (graph graph' : FlowGraph)
    (jobName : JobName) (revision : DefinitionRevision) (old new : ChunkComponentRevisions)
    (plan plan' : CompiledExecutionPlan DefinitionIdentity),
    Change old new graph graph' → old ≠ new → graph.compile serde jobName revision = .ok plan →
    graph'.compile serde jobName revision = .ok plan' →
    plan.definition.canonicalManifest ≠ plan'.definition.canonicalManifest := by
  intro different
  obtain ⟨plan, compiled⟩ :=
    plan_of_isOk (show (chunkCompiled (chunkRevisions firstReader none)).isOk = true by
      decide +kernel)
  obtain ⟨plan', compiled'⟩ :=
    plan_of_isOk (show (chunkCompiled (chunkRevisions firstReader (some fullPolicy))).isOk = true by
      decide +kernel)
  have changed : chunkRevisions firstReader none ≠ chunkRevisions firstReader (some fullPolicy) := by
    intro same
    have policies := congrArg ChunkComponentRevisions.completionPolicy same
    cases policies
  have bytes : (chunkCompiled (chunkRevisions firstReader none)).toOption.map
        (·.definition.canonicalManifest) =
      (chunkCompiled (chunkRevisions firstReader (some fullPolicy))).toOption.map
        (·.definition.canonicalManifest) := by
    decide +kernel
  rw [compiled, compiled'] at bytes
  exact different chunkSerde chunkSerde_faithful _ _ fanJob ⟨"r1", by decide⟩ _ _ plan plan'
    (chunkFlow_change _ _) changed compiled compiled' (Option.some.inj bytes)

end Main

end OxideBatch.Plan
