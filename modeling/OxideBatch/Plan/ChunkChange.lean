import OxideBatch.Plan.Emitted
import OxideBatch.Plan.SimilarPlan

/-! A changed chunk step: where the flow declares it, and which of its revisions reach
the canonical manifest. -/

namespace OxideBatch.Plan

open OxideBatch.Core Program Agreement
open Json (member? hasMember insertMember)
open Std (ExtTreeMap ExtTreeSet)

section Change

variable {old new : ChunkComponentRevisions}

/-- The same chunk step with other component revisions. -/
inductive StepChange (old new : ChunkComponentRevisions) : StepNode → StepNode → Prop
  | of (step : StepNode) (size : ChunkSize) (declared : step.components = .chunk size old) :
      StepChange old new step { step with components := .chunk size new }

/-- The same node with one chunk step of its own changed. -/
inductive NodeChange (old new : ChunkComponentRevisions) :
    FlowNode FlowGraph → FlowNode FlowGraph → Prop
  | step {step step' : StepNode} (change : StepChange old new step step') :
      NodeChange old new (.step step) (.step step')
  | worker {node : PartitionedStepNode} {worker : StepNode}
      (change : StepChange old new node.worker worker) :
      NodeChange old new (.partitionedStep node) (.partitionedStep { node with worker })
  | linear {node : SplitNode FlowGraph} {branch : SplitBranch FlowGraph}
      {before after : List (SplitBranch FlowGraph)} {earlier later : List StepNode}
      {step step' : StepNode} (branches : node.branches = before ++ branch :: after)
      (straight : branch.flow = none) (steps : branch.steps = earlier ++ step :: later)
      (change : StepChange old new step step') :
      NodeChange old new (.split node) (.split { node with
        branches := before ++ { branch with steps := earlier ++ step' :: later } :: after })

/-- The same flow with one chunk step changed, at whatever depth. -/
inductive Change (old new : ChunkComponentRevisions) : FlowGraph → FlowGraph → Prop
  | node {graph : FlowGraph} {before after : List (FlowNode FlowGraph)}
      {node node' : FlowNode FlowGraph} (nodes : graph.nodes = before ++ node :: after)
      (change : NodeChange old new node node') :
      Change old new graph { graph with nodes := before ++ node' :: after }
  | nested {graph inner : FlowGraph} {before after : List (NestedFlow FlowGraph)}
      {flow : NestedFlow FlowGraph} (flows : graph.nestedFlows = before ++ flow :: after)
      (change : Change old new flow.graph inner) :
      Change old new graph { graph with
        nestedFlows := before ++ { flow with graph := inner } :: after }
  | branch {graph inner inner' : FlowGraph} {before after : List (FlowNode FlowGraph)}
      {split : SplitNode FlowGraph} {earlier later : List (SplitBranch FlowGraph)}
      {branch : SplitBranch FlowGraph} (nodes : graph.nodes = before ++ .split split :: after)
      (branches : split.branches = earlier ++ branch :: later) (flow : branch.flow = some inner)
      (change : Change old new inner inner') :
      Change old new graph { graph with nodes := before ++ .split { split with
        branches := earlier ++ { branch with flow := some inner' } :: later } :: after }

theorem StepChange.id (change : StepChange old new step step') : step.id = step'.id := by
  cases change
  rfl

theorem NodeChange.id (change : NodeChange old new node node') : node.id = node'.id := by
  cases change with
  | step change => exact change.id
  | worker _ => rfl
  | linear _ _ _ _ => rfl

/-- The changed step is in a node that both flows declare under one identifier. -/
theorem Change.declares (change : Change old new graph graph') :
    ∃ node node', Declares graph node ∧ Declares graph' node' ∧ NodeChange old new node node' := by
  induction change with
  | @node graph before after node node' nodes change =>
    refine ⟨node, node', .own ?_, .own ?_, change⟩
    · rw [nodes]
      simp
    · simp
  | @nested graph inner before after flow flows _ ih =>
    obtain ⟨node, node', declared, declared', change⟩ := ih
    refine ⟨node, node', @Declares.nested graph node flow ?_ declared,
      @Declares.nested _ node' { flow with graph := inner } ?_ declared', change⟩
    · rw [flows]
      simp
    · simp
  | @branch graph inner inner' before after split earlier later branch nodes branches flow _ ih =>
    obtain ⟨node, node', declared, declared', change⟩ := ih
    refine ⟨node, node', @Declares.branch graph inner node split branch ?_ ?_ flow declared, ?_,
      change⟩
    · rw [nodes]
      simp
    · rw [branches]
      simp
    · refine Declares.branch (List.mem_append_right _ List.mem_cons_self)
        (List.mem_append_right _ List.mem_cons_self) rfl declared'

end Change

section Alike

variable {like : StepNode → StepNode → Prop} (itself : ∀ step, like step step)

private theorem sizeOf_branchFlow {graph inner : FlowGraph} {split : SplitNode FlowGraph}
    {branch : SplitBranch FlowGraph} (member : .split split ∈ graph.nodes)
    (among : branch ∈ split.branches) (flow : branch.flow = some inner) :
    sizeOf inner < sizeOf graph := by
  have first := List.sizeOf_lt_of_mem member
  have second := List.sizeOf_lt_of_mem among
  obtain ⟨_, nodes, _, _, _, _, _⟩ := graph
  obtain ⟨_, branches, _, _, _⟩ := split
  obtain ⟨steps, declared⟩ := branch
  cases flow
  simp only [FlowGraph.mk.sizeOf_spec, FlowNode.split.sizeOf_spec, SplitNode.mk.sizeOf_spec,
    SplitBranch.mk.sizeOf_spec, Option.some.sizeOf_spec] at first second ⊢
  omega

private theorem sizeOf_nestedFlow {graph : FlowGraph} {flow : NestedFlow FlowGraph}
    (member : flow ∈ graph.nestedFlows) : sizeOf flow.graph < sizeOf graph := by
  have first := List.sizeOf_lt_of_mem member
  obtain ⟨_, _, _, flows, _, _, _⟩ := graph
  obtain ⟨id, inner⟩ := flow
  simp only [FlowGraph.mk.sizeOf_spec, NestedFlow.mk.sizeOf_spec] at first ⊢
  omega

include itself

theorem SimilarBranch.refl {branch : SplitBranch FlowGraph}
    (inner : ∀ graph, branch.flow = some graph → Similar like graph graph) :
    SimilarBranch like branch branch := by
  refine .of (List.forall₂_same.mpr fun step _ => itself step) ?_
  cases flow : branch.flow with
  | none => exact .none
  | some graph => exact .some (inner graph flow)

theorem SimilarNode.refl {node : FlowNode FlowGraph}
    (inner : ∀ split, node = .split split → ∀ branch ∈ split.branches, ∀ graph,
      branch.flow = some graph → Similar like graph graph) : SimilarNode like node node := by
  cases node with
  | step node => exact .step (itself node)
  | partitionedStep node => exact .partitionedStep node (itself node.worker)
  | split node =>
    refine .split node (List.forall₂_same.mpr fun branch member => ?_)
    exact SimilarBranch.refl itself (inner node rfl branch member)
  | decision node => exact .decision node
  | nestedJob node => exact .nestedJob node
  | customLeaf node => exact .customLeaf node
  | join node => exact .join node

/-- Every flow is the same as itself. -/
theorem Similar.refl (graph : FlowGraph) : Similar like graph graph := by
  refine .of rfl (List.Perm.refl _) (List.forall₂_same.mpr fun node member => ?_)
    (List.Perm.refl _) (List.Perm.refl _) (List.forall₂_same.mpr fun flow member => ?_)
    (List.Perm.refl _) rfl rfl
  · apply SimilarNode.refl itself
    intro split same branch among inner flow
    subst same
    have smaller := sizeOf_branchFlow member among flow
    exact Similar.refl inner
  · have smaller := sizeOf_nestedFlow member
    exact .of rfl (Similar.refl flow.graph)
termination_by sizeOf graph

omit itself in
/-- One pair in the middle of two lists that are the same around it. -/
private theorem forall₂_middle {α : Type} {related : α → α → Prop}
    (same : ∀ value, related value value)
    {value value' : α} (here : related value value') (before after : List α) :
    List.Forall₂ related (before ++ value :: after) (before ++ value' :: after) := by
  induction before with
  | nil => exact .cons here (List.forall₂_same.mpr fun other _ => same other)
  | cons first before ih => exact .cons (same first) ih

theorem NodeChange.similar (changed : ∀ step step', StepChange old new step step' → like step step')
    (change : NodeChange old new node node') : SimilarNode like node node' := by
  have branchSelf : ∀ branch : SplitBranch FlowGraph, SimilarBranch like branch branch :=
    fun branch => SimilarBranch.refl itself fun graph _ => Similar.refl itself graph
  cases change with
  | step change => exact .step (changed _ _ change)
  | worker change => exact .partitionedStep _ (changed _ _ change)
  | linear branches straight steps change =>
    refine .split _ ?_
    rw [branches]
    apply forall₂_middle branchSelf
    refine .of ?_ ?_
    · rw [steps]
      exact forall₂_middle itself (changed _ _ change) _ _
    · rw [straight]
      exact .none

theorem Change.similar (changed : ∀ step step', StepChange old new step step' → like step step')
    (change : Change old new graph graph') : Similar like graph graph' := by
  have nodeSelf : ∀ node : FlowNode FlowGraph, SimilarNode like node node :=
    fun node => SimilarNode.refl itself fun _ _ _ _ graph _ => Similar.refl itself graph
  have flowSelf : ∀ flow : NestedFlow FlowGraph, SimilarFlow like flow flow :=
    fun flow => .of rfl (Similar.refl itself flow.graph)
  have branchSelf : ∀ branch : SplitBranch FlowGraph, SimilarBranch like branch branch :=
    fun branch => SimilarBranch.refl itself fun graph _ => Similar.refl itself graph
  have sameFlows : ∀ flows : List (NestedFlow FlowGraph),
      List.Forall₂ (SimilarFlow like) flows flows :=
    fun flows => List.forall₂_same.mpr fun flow _ => flowSelf flow
  have sameNodes : ∀ nodes : List (FlowNode FlowGraph),
      List.Forall₂ (SimilarNode like) nodes nodes :=
    fun nodes => List.forall₂_same.mpr fun node _ => nodeSelf node
  induction change with
  | node nodes change =>
    refine .of rfl (List.Perm.refl _) ?_ (List.Perm.refl _) (List.Perm.refl _) (sameFlows _)
      (List.Perm.refl _) rfl rfl
    rw [nodes]
    exact forall₂_middle nodeSelf (change.similar itself changed) _ _
  | nested flows _ ih =>
    refine .of rfl (List.Perm.refl _) (sameNodes _) (List.Perm.refl _) (List.Perm.refl _) ?_
      (List.Perm.refl _) rfl rfl
    rw [flows]
    refine forall₂_middle flowSelf ?_ _ _
    exact .of rfl ih
  | branch nodes branches flow _ ih =>
    refine .of rfl (List.Perm.refl _) ?_ (List.Perm.refl _) (List.Perm.refl _) (sameFlows _)
      (List.Perm.refl _) rfl rfl
    rw [nodes]
    refine forall₂_middle nodeSelf (.split _ ?_) _ _
    rw [branches]
    refine forall₂_middle branchSelf (.of ?_ ?_) _ _
    · exact List.forall₂_same.mpr fun step _ => itself step
    · rw [flow]
      exact .some ih

end Alike

section Projection

/-- The revisions that a flow's chunk declaration is projected from; streams and the
completion policy are not among them. -/
def SameInManifest (old new : ChunkComponentRevisions) : Prop :=
  old.reader = new.reader ∧ old.processor = new.processor ∧ old.writer = new.writer ∧
    old.checkpoint = new.checkpoint ∧ old.restart = new.restart

variable {old new : ChunkComponentRevisions}

theorem text_injective {left right : Token maxBytes} (same : text left = text right) :
    left = right := by
  obtain ⟨value, _⟩ := left
  obtain ⟨value', _⟩ := right
  have values : value = value' := Json.string.inj same
  subst values
  rfl

private theorem version_injective {left right : Positive}
    (same : number left.get = number right.get) :
    left = right := by
  obtain ⟨value, _, _⟩ := left
  obtain ⟨value', _, _⟩ := right
  have values : value = value' := Int.ofNat.inj (Json.integer.inj same)
  subst values
  rfl

private theorem manifestName_injective {left right : ChunkDeliveryMode}
    (same : left.manifestName = right.manifestName) : left = right := by
  cases left <;> cases right <;> first | rfl | simp [ChunkDeliveryMode.manifestName] at same

theorem get?_chunkDeclaration (revisions : ChunkComponentRevisions) {key : String}
    (policy : key ≠ "in_flight_policy") :
    (chunkDeclarationManifest revisions).get? key = member? key
      [("checkpoint", .object
        [("schema", text revisions.restart.checkpointSchema),
         ("version", number revisions.restart.checkpointSchemaVersion.get)]),
       ("components", .object
        [("checkpoint", text revisions.checkpoint),
         ("processor", text revisions.processor),
         ("reader", text revisions.reader),
         ("writer", text revisions.writer)]),
       ("context", .object
        [("schema", text revisions.restart.contextSchema),
         ("version", number revisions.restart.contextSchemaVersion.get)]),
       ("delivery_mode", .string revisions.restart.deliveryMode.manifestName)] := by
  unfold chunkDeclarationManifest
  dsimp only
  split
  · rw [Json.get?_withMember (by simp [Json.asObject]), if_neg (Ne.symm policy)]
    rfl
  · rfl

theorem asObject_chunkDeclaration (revisions : ChunkComponentRevisions) :
    (chunkDeclarationManifest revisions).asObject ≠ none := by
  unfold chunkDeclarationManifest
  dsimp only
  split
  · exact Json.asObject_withMember (by simp [Json.asObject]) _ _
  · simp [Json.asObject]

theorem sameInManifest_of_chunk {size : ChunkSize}
    (same : (StepComponents.chunk size old).manifestValue =
      (StepComponents.chunk size new).manifestValue) : SameInManifest old new := by
  have isObject := asObject_chunkDeclaration
  -- the members of the declaration can be read off the document
  have member : ∀ key, key ≠ "size" → key ≠ "transaction_boundary" →
      (chunkDeclarationManifest old).get? key = (chunkDeclarationManifest new).get? key := by
    intro key size boundary
    have here := congrArg (fun document => document.get? key) same
    simp only [StepComponents.manifestValue] at here
    rw [Json.get?_withMember (Json.asObject_withMember (isObject old) _ _),
      Json.get?_withMember (Json.asObject_withMember (isObject new) _ _),
      Json.get?_withMember (isObject old), Json.get?_withMember (isObject new)] at here
    simpa [Ne.symm size, Ne.symm boundary] using here
  have policy : ∀ revisions : ChunkComponentRevisions,
      (chunkDeclarationManifest revisions).get? "in_flight_policy" =
        if revisions.restart.inFlightPolicy = .rollbackChunk then some (.string "rollback_chunk")
        else none := by
    intro revisions
    unfold chunkDeclarationManifest
    dsimp only
    split
    · rw [Json.get?_withMember (by simp [Json.asObject]), if_pos rfl]
    · simp
  have components := member "components" (by decide) (by decide)
  have checkpoint := member "checkpoint" (by decide) (by decide)
  have context := member "context" (by decide) (by decide)
  have delivery := member "delivery_mode" (by decide) (by decide)
  have inFlight := member "in_flight_policy" (by decide) (by decide)
  rw [get?_chunkDeclaration old (by decide), get?_chunkDeclaration new (by decide)]
    at components checkpoint context delivery
  rw [policy, policy] at inFlight
  simp at components checkpoint context delivery
  obtain ⟨sameCheckpoint, sameProcessor, sameReader, sameWriter⟩ := components
  refine ⟨text_injective sameReader, text_injective sameProcessor, text_injective sameWriter,
    text_injective sameCheckpoint, ?_⟩
  have inFlightPolicy : old.restart.inFlightPolicy = new.restart.inFlightPolicy := by
    cases one : old.restart.inFlightPolicy <;> cases two : new.restart.inFlightPolicy <;>
      simp [one, two] at inFlight ⊢
  cases oldRestart : old.restart with
  | mk schema version contextSchema contextVersion mode flight =>
    cases newRestart : new.restart with
    | mk schema' version' contextSchema' contextVersion' mode' flight' =>
      rw [oldRestart, newRestart] at checkpoint context delivery inFlightPolicy
      obtain rfl := text_injective checkpoint.1
      obtain rfl := version_injective checkpoint.2
      obtain rfl := text_injective context.1
      obtain rfl := version_injective context.2
      obtain rfl := manifestName_injective delivery
      obtain rfl : flight = flight' := inFlightPolicy
      rfl

theorem StepChange.like (same : SameInManifest old new) (change : StepChange old new step step') :
    step.Like step' := by
  cases change with
  | of size declared =>
    obtain ⟨reader, processor, writer, checkpoint, restart⟩ := same
    refine ⟨rfl, rfl, rfl, ?_⟩
    have components : step.components.manifestValue =
        (StepComponents.chunk size new).manifestValue := by
      rw [declared]
      simp only [StepComponents.manifestValue, chunkDeclarationManifest, reader, processor, writer,
        checkpoint, restart]
    have kind : step.components.kindName = (StepComponents.chunk size new).kindName := by
      rw [declared]
      rfl
    unfold StepNode.manifestValue
    rw [components, kind]

/-- The declaration can be read off the manifest of a step. -/
private theorem components_of_manifest {step step' : StepNode}
    (same : step.manifestValue = step'.manifestValue) :
    step.components.manifestValue = step'.components.manifestValue := by
  have member : ∀ step : StepNode, step.manifestValue.get? "step" = some (.object
      [("declaration", step.components.manifestValue),
       ("kind", .string step.components.kindName),
       ("name", text step.stepName)]) := by
    intro step
    unfold StepNode.manifestValue
    cases step.repeatDefinition with
    | none => simp
    | some definition =>
      dsimp only
      rw [Json.get?_withMember (by simp [Json.asObject])]
      simp
  have both := congrArg (fun document => document.get? "step") same
  simp only [member] at both
  simp at both
  exact both.1

theorem StepChange.sameInManifest (change : StepChange old new step step')
    (same : step.manifestValue = step'.manifestValue) : SameInManifest old new := by
  have components := components_of_manifest same
  cases change with
  | of size declared =>
    rw [declared] at components
    exact sameInManifest_of_chunk components

end Projection

end OxideBatch.Plan
