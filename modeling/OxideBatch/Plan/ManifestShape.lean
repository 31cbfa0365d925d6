import OxideBatch.Core.JsonWalk
import OxideBatch.Plan.Base

/-! The shape of every manifest: integers only, restart policies inside start controls
alone, and neither restart policies nor repeat wrappers in the base formats. -/

namespace OxideBatch.Plan

open OxideBatch.Core
open Json (member? hasMember insertMember)
open Std (ExtTreeMap ExtTreeSet)

/-- What holds of the objects inside a manifest; `base` manifests have neither restart
policies nor repeat wrappers. -/
def Tame (base : Prop) (members : List (String × Json)) : Prop :=
  (∀ policy, member? "restart_policy" members = some policy → ¬ base ∧
    hasMember "start_limit" members = true ∧
    hasMember "allow_start_if_complete" members = true ∧ policy = .string "not_restartable") ∧
  (base → member? "repeat" members = none)

section Shape

variable {base : Prop}

/-- An object without a restart policy and a repeat wrapper. -/
theorem Tame.plain {members : List (String × Json)} (policy : member? "restart_policy" members = none)
    (wrapper : member? "repeat" members = none) : Tame base members := by
  refine ⟨fun held found => ?_, fun _ => wrapper⟩
  rw [policy] at found
  cases found

theorem Tame.insertMember {members : List (String × Json)} {key : String} {value : Json}
    (tame : Tame base members) (policy : key ≠ "restart_policy") (limit : key ≠ "start_limit")
    (allow : key ≠ "allow_start_if_complete") (wrapper : base → key ≠ "repeat") :
    Tame base (insertMember key value members) := by
  constructor
  · intro held found
    rw [Json.member?_insertMember, if_neg policy] at found
    obtain ⟨advanced, started, allowed, same⟩ := tame.1 held found
    unfold hasMember at *
    rw [Json.member?_insertMember, Json.member?_insertMember, if_neg limit, if_neg allow]
    exact ⟨advanced, started, allowed, same⟩
  · intro isBase
    rw [Json.member?_insertMember, if_neg (wrapper isBase)]
    exact tame.2 isBase

private theorem every_startControls {controls : StartControls}
    (restartable : base → controls.restartPolicy ≠ .notRestartable) :
    (startControlsManifest controls).Every (Tame base) := by
  unfold startControlsManifest
  dsimp only
  split
  · rename_i policy
    change (Json.object (insertMember _ _ _)).Every (Tame base)
    rw [Json.every_object]
    constructor
    · constructor
      · intro held found
        rw [Json.member?_insertMember, if_pos rfl] at found
        cases found
        refine ⟨fun isBase => restartable isBase policy, ?_, ?_, rfl⟩
        · simp [hasMember, Json.member?_insertMember]
        · simp [hasMember, Json.member?_insertMember]
      · intro isBase
        exact absurd policy (restartable isBase)
    · apply Json.everyMember_insertMember
      · simp
      · simp [number]
  · rw [Json.every_object]
    exact ⟨Tame.plain (by simp) (by simp), by simp [number]⟩

private theorem every_chunkDeclaration (revisions : ChunkComponentRevisions) :
    (chunkDeclarationManifest revisions).Every (Tame base) := by
  unfold chunkDeclarationManifest
  dsimp only
  split
  · apply Json.Every.withMember
    · simp [Tame.plain, text, number]
    · simp
    · rintro members same
      cases same
      apply Tame.insertMember
      · simp [Tame.plain]
      all_goals simp
  · simp [Tame.plain, text, number]

private theorem every_components (components : StepComponents) :
    components.manifestValue.Every (Tame base) := by
  cases components with
  | tasklet revision => simp [StepComponents.manifestValue, Tame.plain, text]
  | chunk size revisions =>
    have declared := @every_chunkDeclaration base revisions
    have tame : ∀ members, chunkDeclarationManifest revisions = .object members →
        Tame base members := by
      intro members same
      rw [same, Json.every_object] at declared
      exact declared.1
    unfold StepComponents.manifestValue
    apply Json.Every.withMember
    · apply Json.Every.withMember declared
      · simp [number]
      · intro members same
        apply (tame members same).insertMember
        all_goals simp
    · simp
    · intro members same
      cases document : chunkDeclarationManifest revisions with
      | object declaredMembers =>
        rw [document] at same
        cases same
        apply Tame.insertMember
        · apply (tame _ document).insertMember
          all_goals simp
        all_goals simp
      | null | bool _ | integer _ | float _ | string _ | array _ =>
        rw [document] at same
        cases same

private theorem every_fault (fault : Option FaultPolicy) : (policyManifest fault).Every
    (Tame base) := by
  have skipped : ∀ skip : Option RollbackDisposition,
      ((skip.map fun skip => Json.string skip.asStr).getD .null).Every (Tame base) := by
    intro skip
    cases skip with
    | none => simp
    | some _ => simp
  cases fault with
  | none => simp [policyManifest]
  | some policy =>
    simp only [policyManifest, Option.map_some, Option.getD_some, faultManifestValue,
      Json.every_object, Json.everyMember_cons, Json.everyMember_nil, Json.every_array,
      List.mem_map, and_true]
    simp [Tame.plain, text, number, faultRuleManifest, skipped]

private theorem every_listeners (listeners : List ComponentRevision) :
    (listenersManifest listeners).Every (Tame base) := by
  simp [listenersManifest, text]

private theorem every_repeatLevel (level : RepeatLevel) : level.manifestValue.Every
    (Tame base) := by
  simp [RepeatLevel.manifestValue, RepeatInterceptorDefinition.manifestValue,
    RepeatPolicyDefinition.manifestValue, RepeatStateSchema.manifestValue, Tame.plain, text, number]

private theorem every_repeat (definition : RepeatDefinition) :
    definition.manifestValue.Every (Tame base) := by
  have general : ∀ (nested : List RepeatLevel) (level : RepeatLevel),
      (repeatManifest level nested).Every (Tame base) := by
    intro nested
    induction nested with
    | nil => exact every_repeatLevel
    | cons inner deeper ih =>
      intro level
      unfold repeatManifest
      apply Json.Every.withMember (every_repeatLevel level) (ih inner)
      intro members same
      have tame := @every_repeatLevel base level
      rw [same, Json.every_object] at tame
      apply tame.1.insertMember
      all_goals simp
  exact general definition.nested definition.outer

private theorem every_step {step : StepNode} (restartable : base → step.isNonrestartable = false)
    (once : base → step.repeatDefinition.isSome = false) :
    step.manifestValue.Every (Tame base) := by
  have start : (startControlsManifest step.start).Every (Tame base) := by
    apply every_startControls
    intro isBase
    exact of_decide_eq_false (restartable isBase)
  unfold StepNode.manifestValue
  cases wrapper : step.repeatDefinition with
  | none =>
    simp [Tame.plain, text, start, every_components, every_fault, every_listeners]
  | some definition =>
    apply Json.Every.withMember
    · simp [Tame.plain, text, start, every_components, every_fault, every_listeners]
    · exact every_repeat definition
    · intro members same
      cases same
      refine Tame.insertMember (Tame.plain (by simp) (by simp)) (by simp) (by simp) (by simp) ?_
      intro isBase
      have none := once isBase
      rw [wrapper] at none
      cases none

private theorem every_path (path : List String) : (pathManifest path).Every (Tame base) := by
  simp [pathManifest]

private theorem every_nestedJob (node : NestedJobNode) : node.manifestValue.Every (Tame base) := by
  have source : ∀ source : NestedJobParameterSource, source.manifestValue.Every (Tame base) := by
    intro source
    cases source <;>
      simp [NestedJobParameterSource.manifestValue, Tame.plain, text, number, every_path]
  simp [NestedJobNode.manifestValue, NestedJobParameterMapping.manifestValue, Tame.plain, text, number,
    source]

private theorem every_customLeaf {node : CustomLeafNode}
    (restartable : base → node.start.restartPolicy ≠ .notRestartable) :
    node.manifestValue.Every (Tame base) := by
  simp [CustomLeafNode.manifestValue, Tame.plain, text, number, every_startControls restartable,
    every_fault, every_listeners]

private theorem every_partitioned {node : PartitionedStepNode}
    (restartable : base → node.start.restartPolicy ≠ .notRestartable)
    (worker : node.worker.manifestValue.Every (Tame base)) :
    node.manifestValue.Every (Tame base) := by
  simp [PartitionedStepNode.manifestValue, Tame.plain, text, number,
    every_startControls restartable, worker]

private theorem every_split (node : SplitNode FlowGraph) {branches : List Json}
    (each : ∀ branch ∈ branches, branch.Every (Tame base)) :
    (splitManifest node branches).Every (Tame base) := by
  simp only [splitManifest, Json.every_object, Json.everyMember_cons, Json.every_array]
  refine ⟨Tame.plain (by simp) (by simp), each, ?_⟩
  simp [text]

private theorem every_transition (edge : FlowTransition) : edge.manifestValue.Every
    (Tame base) := by
  have target : (flowTargetManifest edge.target).Every (Tame base) := by
    cases edge.target <;> simp [flowTargetManifest, Tame.plain, text]
  simp [FlowTransition.manifestValue, Tame.plain, text, target]

theorem every_transitions (transitions : Edges) :
    (transitionsManifest transitions).Every (Tame base) := by
  rw [transitionsManifest, Json.every_array]
  intro value member
  obtain ⟨edge, _, rfl⟩ := List.mem_map.mp member
  exact every_transition edge

theorem every_scopedComponent (component : ScopedComponentDefinition) :
    component.manifestValue.Every (Tame base) := by
  have source : ∀ source : LateBoundSource, source.manifestValue.Every (Tame base) := by
    intro source
    cases source <;> simp [LateBoundSource.manifestValue, Tame.plain, text, number, every_path]
  simp [ScopedComponentDefinition.manifestValue, LateBoundInput.manifestValue, Tame.plain, text,
    source]

private theorem every_members (scope : CompiledFlowScope) : (membersManifest scope).Every
    (Tame base) := by
  simp [membersManifest, text]

theorem every_nested (owner : NodeId) (record : NestedRecord) :
    (nestedManifest owner record).Every (Tame base) := by
  simp [nestedManifest, Tame.plain, text, every_members, every_transition]

/-- The manifest of a node whose format is known. -/
theorem every_node {node : FlowNode FlowGraph}
    (restartable : base → node.hasNonrestartableStep = false)
    (once : base → node.hasRepeatDefinition = false) : node.manifestValue.Every (Tame base) := by
  cases node with
  | step node => exact every_step restartable once
  | decision node => simp [FlowNode.manifestValue, DecisionNode.manifestValue, Tame.plain, text, number]
  | nestedJob node => exact every_nestedJob node
  | customLeaf node =>
    apply every_customLeaf
    intro isBase
    simpa [FlowNode.hasNonrestartableStep] using restartable isBase
  | split node =>
    apply every_split
    intro value member
    obtain ⟨branch, among, rfl⟩ := List.mem_map.mp member
    rw [SplitBranch.manifestValue, Json.every_array]
    intro value' member'
    obtain ⟨step, inside, rfl⟩ := List.mem_map.mp member'
    have present : step ∈ node.branches.flatMap (·.steps) :=
      List.mem_flatMap.mpr ⟨branch, among, inside⟩
    apply every_step
    · intro isBase
      have all := restartable isBase
      rw [FlowNode.hasNonrestartableStep, List.any_eq_false] at all
      simpa using all step present
    · intro isBase
      have all := once isBase
      rw [FlowNode.hasRepeatDefinition, List.any_eq_false] at all
      simpa using all step present
  | join node => simp [FlowNode.manifestValue, JoinNode.manifestValue, Tame.plain, text]
  | partitionedStep node =>
    have both : base → node.start.restartPolicy ≠ .notRestartable ∧
        node.worker.isNonrestartable = false := by
      intro isBase
      simpa [FlowNode.hasNonrestartableStep] using restartable isBase
    exact every_partitioned (fun isBase => (both isBase).1)
      (every_step (fun isBase => (both isBase).2) once)

private theorem every_advancedNode (branchScopes : BranchScopes) (node : FlowNode FlowGraph) :
    (advancedNodeValue branchScopes node).Every (Tame False) := by
  have plainStep : ∀ step : StepNode, step.manifestValue.Every (Tame False) :=
    fun step => every_step nofun nofun
  have plainNode : ∀ node : FlowNode FlowGraph, node.manifestValue.Every (Tame False) :=
    fun node => every_node nofun nofun
  cases node with
  | split node =>
    apply every_split
    intro value member
    obtain ⟨branch, _, rfl⟩ := List.mem_map.mp member
    unfold branchManifest
    cases branchScopes[(node.id, branch.2)]? with
    | none => simp [Tame.plain, number, plainStep]
    | some scope => simp [Tame.plain, text, number, every_members]
  | step node => exact plainNode (.step node)
  | decision node => exact plainNode (.decision node)
  | nestedJob node => exact plainNode (.nestedJob node)
  | customLeaf node => exact plainNode (.customLeaf node)
  | join node => exact plainNode (.join node)
  | partitionedStep node => exact plainNode (.partitionedStep node)

theorem every_advancedNodeManifest (branchScopes : BranchScopes) (node : FlowNode FlowGraph)
    (sequence : Option Nat) :
    (advancedNodeManifest branchScopes node sequence).Every (Tame False) := by
  have every := every_advancedNode branchScopes node
  cases sequence with
  | none => exact every
  | some place =>
    apply every.withMember
    · simp [number]
    · intro members same
      rw [same, Json.every_object] at every
      apply every.1.insertMember
      all_goals simp

end Shape

end OxideBatch.Plan
