import OxideBatch.Plan.ChunkIdentity
import OxideBatch.Plan.Reader

/-! The reader on the values of a manifest: which repeat identities it collects and
which places and edges it counts. -/

namespace OxideBatch.Plan

open OxideBatch.Core Program
open Json (member? hasMember)
open Std (ExtTreeMap ExtTreeSet)

section Members

variable {members : Members} {key : String}

@[simp] theorem readable_some {α : Type} (value : α) : readable (some value) = .ok value := rfl

@[simp] theorem ok_bind {α β : Type} (value : α) (next : α → Except ManifestError β) :
    (Except.ok value >>= next) = next value := rfl

@[simp] theorem require_true : require true = .ok () := rfl

theorem require_ok {condition : Bool} (holds : condition = true) : require condition = .ok () := by
  rw [holds, require_true]

theorem requireToken_ok {token : Token 128} (found : member? key members = some (text token)) :
    requireToken key members = .ok () := by
  unfold requireToken
  rw [found]
  exact require_ok token.valid

theorem exactly_ok {required : List String} (count : members.length = required.length)
    (known : ∀ member ∈ members, member.1 ∈ required) :
    exactly required (.object members) = .ok members := by
  unfold exactly
  have holds : (decide (members.length = required.length) &&
      members.all fun member => required.contains member.1) = true := by
    simpa [count] using known
  simp only [Json.asObject, readable_some, ok_bind, require_ok holds]
  rfl

theorem asU64_number {value : Nat} (small : value < 4294967296) :
    (number value).asU64 = some value :=
  Json.asU64_natCast (by omega)

theorem arrayLen_array {values : List Json} (found : member? key members = some (.array values)) :
    arrayLen (member? key members) = .ok values.length := by
  rw [found]
  rfl

end Members

section Repeat

/-- The identities after those of `added` have been entered. -/
def enter (ids : ExtTreeSet String) (added : List (Token 128)) : ExtTreeSet String :=
  added.foldl (fun ids id => ids.insert id.value) ids

/-- A reader that enters the `added` identities when they are new. -/
def Enters (read : ExtTreeSet String → Except ManifestError (ExtTreeSet String))
    (added : List (Token 128)) : Prop :=
  ∀ ids, added.Nodup → (∀ id ∈ added, id.value ∉ ids) → read ids = .ok (enter ids added)

variable {ids : ExtTreeSet String} {added : List (Token 128)}

theorem value_injective {left right : Token 128} (same : left.value = right.value) : left = right := by
  cases left
  cases right
  cases same
  rfl

private theorem mem_enter (value : String) :
    value ∈ enter ids added ↔ value ∈ ids ∨ ∃ id ∈ added, id.value = value := by
  induction added generalizing ids with
  | nil => simp [enter]
  | cons first added ih =>
    change value ∈ enter (ids.insert first.value) added ↔ _
    rw [ih, ExtTreeSet.mem_insert]
    simp only [List.mem_cons, exists_eq_or_imp, Std.LawfulEqCmp.compare_eq_iff_eq]
    tauto

private theorem enter_append (left right : List (Token 128)) :
    enter ids (left ++ right) = enter (enter ids left) right :=
  List.foldl_append

private theorem insertUnique_enters (id : Token 128) : Enters (insertUnique id.value) [id] := by
  intro ids _ fresh
  have absent : ids.contains id.value = false := by
    rw [← Bool.not_eq_true, ExtTreeSet.contains_iff_mem]
    exact fresh id List.mem_cons_self
  rw [insertUnique, absent]
  rfl

/-- Readers one after the other enter what both of them enter. -/
theorem Enters.bind {first second : ExtTreeSet String → Except ManifestError (ExtTreeSet String)}
    {left right : List (Token 128)} (one : Enters first left) (two : Enters second right) :
    Enters (fun ids => first ids >>= second) (left ++ right) := by
  intro ids distinct fresh
  obtain ⟨distinctLeft, distinctRight, apart⟩ := List.nodup_append.mp distinct
  have here := one ids distinctLeft fun id member => fresh id (List.mem_append_left _ member)
  have later := two (enter ids left) distinctRight fun id member => by
    rw [mem_enter, not_or]
    refine ⟨fresh id (List.mem_append_right _ member), ?_⟩
    rintro ⟨other, before, same⟩
    exact apart other before id member (value_injective same)
  change (first ids >>= second) = _
  rw [here, enter_append]
  exact later

theorem enters_foldlM {α : Type} {values : List α}
    {read : ExtTreeSet String → α → Except ManifestError (ExtTreeSet String)}
    (added : α → List (Token 128))
    (each : ∀ value ∈ values, Enters (fun ids => read ids value) (added value)) :
    Enters (fun ids => values.foldlM read ids) (values.flatMap added) := by
  induction values with
  | nil => exact fun ids _ _ => rfl
  | cons value values ih =>
    have here := each value List.mem_cons_self
    have later := ih fun other member => each other (List.mem_cons_of_mem _ member)
    exact here.bind later

private theorem validateRepeatPolicy_ok (policy : RepeatPolicyDefinition) :
    validateRepeatPolicy policy.manifestValue = .ok () := by
  unfold validateRepeatPolicy RepeatPolicyDefinition.manifestValue
  rw [exactly_ok rfl (by simp), ok_bind, @requireToken_ok _ _ policy.configuration (by simp), ok_bind,
    @requireToken_ok _ _ policy.kind (by simp), ok_bind, @requireToken_ok _ _ policy.revision (by simp)]

private theorem validateRepeatState_ok (state : RepeatStateSchema) :
    validateRepeatState state.manifestValue = .ok () := by
  have version : (member? "version" [("schema", text state.schema),
      ("version", number state.version.get)]).bind Json.asU64 = some state.version.get := by
    have small : state.version.get < 4294967296 := state.version.within
    rw [Json.member?_cons, if_neg (by decide), Json.member?_cons, if_pos rfl, Option.bind_some,
      asU64_number small]
  have fits : (decide (0 < state.version.get) && decide (state.version.get < 2 ^ 32)) = true := by
    have small : state.version.get < 2 ^ 32 := state.version.within
    simp only [state.version.positive, small, decide_true, Bool.and_self]
  unfold validateRepeatState RepeatStateSchema.manifestValue
  rw [exactly_ok rfl (by simp), ok_bind, @requireToken_ok _ _ state.schema (by simp), ok_bind, version,
    readable_some, ok_bind, fits, require_true]

private theorem validateRepeatInterceptor_enters (interceptor : RepeatInterceptorDefinition) :
    Enters (fun ids => validateRepeatInterceptor ids interceptor.manifestValue)
      [interceptor.id] := by
  intro ids distinct fresh
  have inserted := insertUnique_enters interceptor.id ids distinct fresh
  unfold validateRepeatInterceptor RepeatInterceptorDefinition.manifestValue
  dsimp only
  rw [exactly_ok rfl (by simp), ok_bind, @requireToken_ok _ _ interceptor.id (by simp), ok_bind]
  simp only [Json.member?_cons, if_true, Option.bind_some, text, Json.asStr, readable_some, ok_bind,
    inserted]
  rw [@requireToken_ok _ _ interceptor.kind (by simp [text]), ok_bind,
    @requireToken_ok _ _ interceptor.revision (by simp [text]), ok_bind]
  rfl

/-- The interceptors of a wrapper have identities of their own. -/
private theorem validateInterceptors_ok (level : RepeatLevel) :
    ∃ ids, (level.interceptors.map RepeatInterceptorDefinition.manifestValue).foldlM
      validateRepeatInterceptor ∅ = .ok ids := by
  rw [List.foldlM_map]
  refine ⟨_, enters_foldlM (fun interceptor => [interceptor.id])
    (fun interceptor _ => validateRepeatInterceptor_enters interceptor) ∅ ?_ ?_⟩
  · rw [← List.map_eq_flatMap]
    exact level.distinctInterceptors
  · intro id _
    simp

private theorem mem_insertMember {members : Members} {key : String} {value : Json}
    {member : String × Json}
    (among : member ∈ Json.insertMember key value members) : member.1 = key ∨ member ∈ members := by
  induction members with
  | nil =>
    rw [Json.insertMember, List.mem_singleton] at among
    exact .inl (by rw [among])
  | cons head members ih =>
    obtain ⟨other, held⟩ := head
    unfold Json.insertMember at among
    split at among
    · rcases List.mem_cons.mp among with rfl | later
      · exact .inl rfl
      · exact .inr later
    · split at among
      · rcases List.mem_cons.mp among with rfl | later
        · exact .inl rfl
        · exact .inr (List.mem_cons_of_mem _ later)
      · rcases List.mem_cons.mp among with rfl | later
        · exact .inr List.mem_cons_self
        · exact (ih later).imp id (List.mem_cons_of_mem _)

/-- A wrapper enters its own identity and hands on to the wrapper nested in it. -/
private theorem validateRepeatDefinition_level {members : Members} {level : RepeatLevel}
    (depth : Nat)
    (known : ∀ member ∈ members,
      member.1 ∈ ["id", "interceptors", "nested", "policy", "state"])
    (same : ∀ key, key ≠ "nested" → member? key members = level.manifestValue.get? key)
    (fresh : level.id.value ∉ ids) :
    validateRepeatDefinition (depth + 1) ids (.object members) =
      match member? "nested" members with
      | none => .ok (enter ids [level.id])
      | some nested => validateRepeatDefinition depth (enter ids [level.id]) nested := by
  obtain ⟨entered, interceptors⟩ := validateInterceptors_ok level
  have inserted := insertUnique_enters level.id ids (List.nodup_singleton _)
    (by simpa using fresh)
  have id : member? "id" members = some (text level.id) := by
    rw [same _ (by decide)]
    simp [RepeatLevel.manifestValue]
  have policy : member? "policy" members = some level.policy.manifestValue := by
    rw [same _ (by decide)]
    simp [RepeatLevel.manifestValue]
  have state : member? "state" members = some level.state.manifestValue := by
    rw [same _ (by decide)]
    simp [RepeatLevel.manifestValue]
  have listed : member? "interceptors" members = some (.array
      (level.interceptors.map RepeatInterceptorDefinition.manifestValue)) := by
    rw [same _ (by decide)]
    simp [RepeatLevel.manifestValue]
  have keys : (members.all fun member =>
      ["id", "interceptors", "nested", "policy", "state"].contains member.1) = true := by
    simpa using known
  have few : decide ((level.interceptors.map RepeatInterceptorDefinition.manifestValue).length ≤
      maxRepeatInterceptors) = true := by
    rw [List.length_map]
    exact decide_eq_true level.fewInterceptors
  rw [validateRepeatDefinition]
  simp only [Json.asObject, readable_some, ok_bind, keys, require_true, requireToken_ok id, id,
    Option.bind_some, text, Json.asStr, inserted, policy, validateRepeatPolicy_ok, state,
    validateRepeatState_ok, listed, Json.asArray, few, interceptors]
  cases member? "nested" members <;> rfl

private theorem asObject_level (level : RepeatLevel) : level.manifestValue.asObject ≠ none := by
  simp [RepeatLevel.manifestValue, Json.asObject]

/-- A chain of wrappers enters the identities from the outside in. -/
private theorem validateRepeatDefinition_enters (level : RepeatLevel) (deeper : List RepeatLevel)
    (depth : Nat) (shallow : deeper.length < depth) :
    Enters (fun ids => validateRepeatDefinition depth ids (repeatManifest level deeper))
      ((level :: deeper).map (·.id)) := by
  induction deeper generalizing level depth with
  | nil =>
    intro ids _ fresh
    obtain ⟨depth, rfl⟩ := Nat.exists_eq_add_of_lt shallow
    change validateRepeatDefinition (0 + depth + 1) ids level.manifestValue = _
    unfold RepeatLevel.manifestValue
    rw [validateRepeatDefinition_level _ (by simp) (fun _ _ => rfl)
      (fresh level.id List.mem_cons_self)]
    simp
  | cons inner deeper ih =>
    intro ids distinct fresh
    obtain ⟨depth, rfl⟩ : ∃ less, depth = less + 1 := ⟨depth - 1, by omega⟩
    obtain ⟨away, distinct'⟩ := List.nodup_cons.mp distinct
    have found : (repeatManifest level (inner :: deeper)).get? "nested" =
        some (repeatManifest inner deeper) := by
      rw [repeatManifest, Json.get?_withMember (asObject_level level), if_pos rfl]
    have later := ih inner depth (by simpa using shallow) (enter ids [level.id]) distinct' (by
      intro id member
      rw [mem_enter, not_or]
      refine ⟨fresh id (List.mem_cons_of_mem _ member), ?_⟩
      rintro ⟨other, first, same⟩
      rw [List.mem_singleton] at first
      subst first
      rw [← value_injective same] at member
      exact away member)
    have shown : repeatManifest level (inner :: deeper) = .object (Json.insertMember "nested"
        (repeatManifest inner deeper) _) := rfl
    dsimp only
    rw [shown] at found ⊢
    rw [validateRepeatDefinition_level depth ?_ ?_ (fresh level.id List.mem_cons_self)]
    · rw [Json.get?_object] at found
      rw [found]
      exact later
    · intro member among
      rcases mem_insertMember among with same | held
      · rw [same]
        decide
      · simp only [List.mem_cons, List.not_mem_nil, or_false] at held
        rcases held with rfl | rfl | rfl | rfl <;> simp
    · intro key other
      rw [Json.member?_insertMember, if_neg (Ne.symm other)]
      rfl

private theorem repeatDefinition_enters (definition : RepeatDefinition) :
    Enters (fun ids => validateRepeatDefinition maxRepeatNestingDepth ids definition.manifestValue)
      definition.ids :=
  validateRepeatDefinition_enters definition.outer definition.nested _ definition.shallow

private theorem validateEachStep_eq (ids : ExtTreeSet String) (steps : List Json) :
    validateEachStep ids steps = steps.foldlM validateNodeRepeat ids := by
  induction steps generalizing ids with
  | nil => rfl
  | cons step steps ih =>
    rw [validateEachStep, List.foldlM_cons]
    congr 1
    funext entered
    exact ih entered

private theorem validateWorkerRepeat_eq {members : Members} {worker : Json}
    (found : member? "worker" members = some worker) :
    validateWorkerRepeat ids members = validateNodeRepeat ids worker := by
  induction members with
  | nil => cases found
  | cons head members ih =>
    obtain ⟨key, value⟩ := head
    rw [Json.member?_cons] at found
    rw [validateWorkerRepeat]
    split at found
    · next same =>
      rw [if_pos same, Option.some.inj found]
    · next other =>
      rw [if_neg other]
      exact ih found

private theorem validateBranchesRepeat_eq {members : Members} {branches : List Json}
    (found : member? "branches" members = some (.array branches)) :
    validateBranchesRepeat ids members = validateEachBranch ids branches := by
  induction members with
  | nil => cases found
  | cons head members ih =>
    obtain ⟨key, value⟩ := head
    rw [Json.member?_cons] at found
    rw [validateBranchesRepeat.eq_def]
    dsimp only
    split at found
    · next same =>
      rw [if_pos same, Option.some.inj found]
    · next other =>
      rw [if_neg other]
      exact ih found

private theorem validateStepsRepeat_eq {members : Members} {steps : List Json}
    (found : member? "steps" members = some (.array steps)) :
    validateStepsRepeat ids members = validateEachStep ids steps := by
  induction members with
  | nil => cases found
  | cons head members ih =>
    obtain ⟨key, value⟩ := head
    rw [Json.member?_cons] at found
    rw [validateStepsRepeat.eq_def]
    dsimp only
    split at found
    · next same =>
      rw [if_pos same, Option.some.inj found]
    · next other =>
      rw [if_neg other]
      exact ih found

private theorem enters_none {read : ExtTreeSet String → Except ManifestError (ExtTreeSet String)}
    (unchanged : ∀ ids, read ids = .ok ids) : Enters read [] :=
  fun ids _ _ => unchanged ids

/-- Members of a step as the reader looks them up. -/
private theorem stepMembers_enters {members : Members} {step : StepNode}
    (same : ∀ key, key ≠ "decision_sequence" → member? key members = step.manifestValue.get? key) :
    Enters (fun ids => validateNodeRepeat ids (.object members)) step.repeatIds := by
  have kind : kindOf members = some "step" := by
    unfold kindOf
    rw [same _ (by decide), get?_step step (by decide)]
    simp [Json.asStr]
  have definition : member? "repeat" members =
      step.repeatDefinition.map RepeatDefinition.manifestValue := by
    rw [same _ (by decide)]
    unfold StepNode.manifestValue
    cases step.repeatDefinition with
    | none => simp
    | some definition =>
      dsimp only
      rw [Json.get?_withMember (by simp [Json.asObject]), if_pos rfl]
      rfl
  have reads : ∀ ids, validateNodeRepeat ids (.object members) =
      match step.repeatDefinition.map RepeatDefinition.manifestValue with
      | none => .ok ids
      | some definition => validateRepeatDefinition maxRepeatNestingDepth ids definition := by
    intro ids
    rw [validateNodeRepeat, kind, ← definition, if_neg (fun wrong => wrong.1 rfl)]
    rfl
  unfold StepNode.repeatIds
  intro ids
  dsimp only
  rw [reads]
  cases step.repeatDefinition with
  | none => exact fun _ _ => rfl
  | some declared => exact repeatDefinition_enters declared ids

theorem asObject_step (step : StepNode) : step.manifestValue.asObject ≠ none :=
  asObject_advancedNodeValue ∅ (.step step)

theorem object_of_asObject {document : Json} (isObject : document.asObject ≠ none) :
    ∃ members, document = .object members := by
  cases document with
  | object members => exact ⟨members, rfl⟩
  | null | bool _ | integer _ | float _ | string _ | array _ => exact absurd rfl isObject

private theorem step_enters (step : StepNode) :
    Enters (fun ids => validateNodeRepeat ids step.manifestValue) step.repeatIds := by
  obtain ⟨members, shown⟩ := object_of_asObject (asObject_step step)
  rw [shown]
  apply stepMembers_enters
  intro key _
  rw [shown, Json.get?_object]

/-- The wrappers that the reader finds: those of linear branches, workers, and steps. -/
def FlowNode.readRepeats : FlowNode FlowGraph → List RepeatId
  | .split node => node.branches.flatMap fun branch =>
    if branch.flow.isSome then [] else branch.steps.flatMap (·.repeatIds)
  | node => node.repeatIds

private theorem branch_enters {scopes : BranchScopes} {split : NodeId}
    {branch : SplitBranch FlowGraph}
    {ordinal : Nat} {branches : List Json} {added : List RepeatId}
    (straight : scopes[(split, ordinal)]?.isSome = branch.flow.isSome)
    (later : Enters (fun ids => validateEachBranch ids branches) added) :
    Enters (fun ids => validateEachBranch ids (branchManifest scopes split (branch, ordinal) :: branches))
      ((if branch.flow.isSome then [] else branch.steps.flatMap (·.repeatIds)) ++ added) := by
  unfold branchManifest
  dsimp only
  cases placed : scopes[(split, ordinal)]? with
  | none =>
    rw [placed] at straight
    rw [← straight]
    have steps : Enters (fun ids => validateStepsRepeat ids
        [("kind", .string "linear"), ("ordinal", number (ordinal + 1)),
          ("steps", .array (branch.steps.map StepNode.manifestValue))])
        (branch.steps.flatMap (·.repeatIds)) := by
      intro ids
      dsimp only
      rw [@validateStepsRepeat_eq ids _ (branch.steps.map StepNode.manifestValue) (by simp),
        validateEachStep_eq, List.foldlM_map]
      exact enters_foldlM (·.repeatIds) (fun step _ => step_enters step) ids
    intro ids
    dsimp only
    rw [validateEachBranch]
    exact steps.bind later ids
  | some scope =>
    rw [placed] at straight
    rw [← straight]
    intro ids
    dsimp only
    rw [validateEachBranch]
    exact (enters_none fun _ => rfl).bind later ids

private theorem branches_enter {scopes : BranchScopes} {split : NodeId}
    (branches : List (SplitBranch FlowGraph)) (start : Nat)
    (straight : ∀ (ordinal : Nat) (branch : SplitBranch FlowGraph),
      branches[ordinal]? = some branch →
      scopes[(split, start + ordinal)]?.isSome = branch.flow.isSome) :
    Enters (fun ids => validateEachBranch ids
        ((branches.zipIdx start).map (branchManifest scopes split)))
      (branches.flatMap fun branch =>
        if branch.flow.isSome then [] else branch.steps.flatMap (·.repeatIds)) := by
  induction branches generalizing start with
  | nil => exact fun _ _ _ => rfl
  | cons branch branches ih =>
    rw [List.zipIdx_cons, List.map_cons, List.flatMap_cons]
    apply branch_enters
    · exact straight 0 branch rfl
    · apply ih
      intro ordinal branch found
      rw [Nat.add_assoc, Nat.add_comm 1]
      exact straight (ordinal + 1) branch found

/-- The members of a projected node, apart from the decision sequence. -/
def Projects (scopes : BranchScopes) (node : FlowNode FlowGraph) (members : Members) : Prop :=
  ∀ key, key ≠ "decision_sequence" → member? key members = (advancedNodeValue scopes node).get? key

theorem projects_advancedNodeManifest (scopes : BranchScopes) (node : FlowNode FlowGraph)
    (sequence : Option Nat) : ∃ members,
      advancedNodeManifest scopes node sequence = .object members ∧ Projects scopes node members := by
  have isObject : (advancedNodeManifest scopes node sequence).asObject ≠ none := by
    cases sequence with
    | none => exact asObject_advancedNodeValue scopes node
    | some place => exact Json.asObject_withMember (asObject_advancedNodeValue scopes node) _ _
  obtain ⟨members, shown⟩ := object_of_asObject isObject
  refine ⟨members, shown, fun key other => ?_⟩
  rw [← get?_advancedNodeManifest scopes node sequence other, shown, Json.get?_object]

/-- The kind under which a node is projected. -/
def FlowNode.kindName : FlowNode FlowGraph → String
  | .step _ => "step"
  | .decision _ => "decision"
  | .nestedJob _ => "nested_job"
  | .customLeaf _ => "custom_leaf"
  | .split _ => "split"
  | .join _ => "join"
  | .partitionedStep _ => "partitioned_step"

variable {scopes : BranchScopes} {node : FlowNode FlowGraph} {members : Members}

theorem kindOf_projects (projects : Projects scopes node members) :
    kindOf members = some node.kindName := by
  unfold kindOf
  rw [projects _ (by decide)]
  cases node with
  | step node =>
    change (node.manifestValue.get? "kind").bind Json.asStr = _
    rw [get?_step node (by decide)]
    simp [FlowNode.kindName, Json.asStr]
  | split node => simp [advancedNodeValue, splitManifest, FlowNode.kindName, Json.asStr]
  | decision _ | nestedJob _ | customLeaf _ | join _ | partitionedStep _ =>
    simp [advancedNodeValue, FlowNode.manifestValue, DecisionNode.manifestValue,
      NestedJobNode.manifestValue, CustomLeafNode.manifestValue, JoinNode.manifestValue,
      PartitionedStepNode.manifestValue, FlowNode.kindName, Json.asStr]

/-- Only steps have a wrapper of their own. -/
private theorem unwrapped_projects (projects : Projects scopes node members)
    (other : ∀ step, node ≠ .step step) : hasMember "repeat" members = false := by
  unfold hasMember
  rw [projects _ (by decide)]
  cases node with
  | step node => exact absurd rfl (other node)
  | split node => simp [advancedNodeValue, splitManifest]
  | decision _ | nestedJob _ | customLeaf _ | join _ | partitionedStep _ =>
    simp [advancedNodeValue, FlowNode.manifestValue, DecisionNode.manifestValue,
      NestedJobNode.manifestValue, CustomLeafNode.manifestValue, JoinNode.manifestValue,
      PartitionedStepNode.manifestValue]

theorem node_enters (projects : Projects scopes node members)
    (straight : ∀ split, node = .split split → ∀ (ordinal : Nat) (branch : SplitBranch FlowGraph),
      split.branches[ordinal]? = some branch →
      scopes[(split.id, ordinal)]?.isSome = branch.flow.isSome) :
    Enters (fun ids => validateNodeRepeat ids (.object members)) node.readRepeats := by
  have kind := kindOf_projects projects
  cases node with
  | step node => exact stepMembers_enters projects
  | partitionedStep node =>
    have worker : member? "worker" members = some node.worker.manifestValue := by
      rw [projects _ (by decide)]
      simp [advancedNodeValue, FlowNode.manifestValue, PartitionedStepNode.manifestValue]
    have plain := unwrapped_projects projects (by simp)
    intro ids
    dsimp only
    rw [validateNodeRepeat, kind, plain, if_neg (by simp)]
    change _ → _ → validateWorkerRepeat ids members = _
    rw [validateWorkerRepeat_eq worker]
    exact step_enters node.worker ids
  | split node =>
    have branches : member? "branches" members =
        some (.array (node.branches.zipIdx.map (branchManifest scopes node.id))) := by
      rw [projects _ (by decide)]
      simp [advancedNodeValue, splitManifest]
    have plain := unwrapped_projects projects (by simp)
    intro ids
    dsimp only
    rw [validateNodeRepeat, kind, plain, if_neg (by simp)]
    change _ → _ → validateBranchesRepeat ids members = _
    rw [validateBranchesRepeat_eq branches]
    apply branches_enter
    intro ordinal branch found
    rw [Nat.zero_add]
    exact straight node rfl ordinal branch found
  | decision _ | nestedJob _ | customLeaf _ | join _ =>
    have plain := unwrapped_projects projects (by simp)
    apply enters_none
    intro ids
    rw [validateNodeRepeat, kind, plain, if_neg (by simp)]
    rfl

theorem nested_enters (owner : NodeId) (record : NestedRecord) :
    Enters (fun ids => validateNodeRepeat ids (nestedManifest owner record)) [] := by
  apply enters_none
  intro ids
  have kind : kindOf [("entry", text record.scope.entry),
      ("exits", .array (record.exits.map FlowTransition.manifestValue)), ("id", text owner),
      ("kind", .string "nested_flow"), ("members", membersManifest record.scope)] =
      some "nested_flow" := by
    simp [kindOf, Json.asStr]
  unfold nestedManifest
  rw [validateNodeRepeat, kind, if_neg (by simp [hasMember])]
  rfl

/-- The wrappers that the reader does not find belong to steps beside a flow. -/
theorem readRepeats_sublist (node : FlowNode FlowGraph) :
    node.readRepeats.Sublist node.repeatIds := by
  cases node with
  | split node =>
    change List.Sublist _ ((node.branches.flatMap (·.steps)).flatMap (·.repeatIds))
    rw [List.flatMap_assoc]
    change List.Sublist (node.branches.flatMap fun branch => _) _
    induction node.branches with
    | nil => exact List.Sublist.slnil
    | cons branch branches ih =>
      rw [List.flatMap_cons, List.flatMap_cons]
      apply List.Sublist.append _ ih
      split
      · exact List.nil_sublist _
      · exact List.Sublist.refl _
  | step _ | decision _ | nestedJob _ | customLeaf _ | join _ | partitionedStep _ =>
    exact List.Sublist.refl _

end Repeat

section Count

variable {scopes : BranchScopes} {node : FlowNode FlowGraph} {members : Members}
  {nodes transitions : Nat}

private theorem checkedAdd_ok {left right : Nat} (fits : left + right ≤ maxNodes + maxTransitions) :
    checkedAdd left right = .ok (left + right) := by
  unfold checkedAdd
  apply if_pos
  unfold maxNodes maxTransitions at fits
  omega

theorem ensureGraphBounds_ok (fewNodes : nodes ≤ maxNodes)
    (fewTransitions : transitions ≤ maxTransitions) :
    ensureGraphBounds nodes transitions = .ok () := by
  unfold ensureGraphBounds
  rw [if_neg (by omega)]

/-- The steps of a linear branch. -/
def SplitBranch.linearSteps (branch : SplitBranch FlowGraph) : Nat :=
  if branch.flow.isSome then 0 else branch.steps.length

private theorem countBranch_ok {split : NodeId} {branch : SplitBranch FlowGraph} {ordinal : Nat}
    (straight : scopes[(split, ordinal)]?.isSome = branch.flow.isSome)
    (fits : nodes + branch.linearSteps ≤ maxNodes) :
    countBranch nodes (branchManifest scopes split (branch, ordinal)) =
      .ok (nodes + branch.linearSteps) := by
  unfold SplitBranch.linearSteps at fits ⊢
  unfold countBranch branchManifest
  rw [← straight] at fits ⊢
  dsimp only
  cases placed : scopes[(split, ordinal)]? with
  | none =>
    rw [placed] at fits
    have steps : arrayLen (member? "steps" [("kind", .string "linear"),
        ("ordinal", number (ordinal + 1)),
        ("steps", .array (branch.steps.map StepNode.manifestValue))]) =
        .ok branch.steps.length := by
      rw [@arrayLen_array _ _ (branch.steps.map StepNode.manifestValue) (by simp), List.length_map]
    have kind : kindOf [("kind", .string "linear"), ("ordinal", number (ordinal + 1)),
        ("steps", .array (branch.steps.map StepNode.manifestValue))] = some "linear" := by
      simp [kindOf, Json.asStr]
    simp only [Json.asObject, readable_some, ok_bind, kind]
    rw [steps, ok_bind]
    exact checkedAdd_ok (Nat.le_add_right_of_le fits)
  | some scope =>
    have kind : kindOf [("entry", text scope.entry), ("kind", .string "flow"),
        ("members", membersManifest scope), ("ordinal", number (ordinal + 1))] = some "flow" := by
      simp [kindOf, Json.asStr]
    have shaped : (hasArray "members" [("entry", text scope.entry), ("kind", .string "flow"),
          ("members", membersManifest scope), ("ordinal", number (ordinal + 1))] &&
        hasStr "entry" [("entry", text scope.entry), ("kind", .string "flow"),
          ("members", membersManifest scope), ("ordinal", number (ordinal + 1))]) = true := by
      simp [hasArray, hasStr, membersManifest, text, Json.asArray, Json.asStr]
    simp only [Json.asObject, readable_some, ok_bind, kind]
    rw [shaped, require_true, ok_bind]
    rfl

private theorem countBranches_ok {split : NodeId} (branches : List (SplitBranch FlowGraph))
    (start : Nat)
    (straight : ∀ (ordinal : Nat) (branch : SplitBranch FlowGraph),
      branches[ordinal]? = some branch →
      scopes[(split, start + ordinal)]?.isSome = branch.flow.isSome)
    (fits : nodes + (branches.map (·.linearSteps)).sum ≤ maxNodes) :
    ((branches.zipIdx start).map (branchManifest scopes split)).foldlM countBranch nodes =
      .ok (nodes + (branches.map (·.linearSteps)).sum) := by
  induction branches generalizing start nodes with
  | nil => rfl
  | cons branch branches ih =>
    rw [List.map_cons, List.sum_cons] at fits ⊢
    have here : countBranch nodes (branchManifest scopes split (branch, start)) =
        .ok (nodes + branch.linearSteps) :=
      countBranch_ok (straight 0 branch rfl) (by omega)
    rw [List.zipIdx_cons, List.map_cons, List.foldlM_cons, here, ok_bind, ih, Nat.add_assoc]
    · intro ordinal branch found
      rw [Nat.add_assoc, Nat.add_comm 1]
      exact straight (ordinal + 1) branch found
    · omega

private theorem sum_places (branches : List (SplitBranch FlowGraph)) :
    (branches.map (·.places)).sum = branches.length + (branches.map (·.linearSteps)).sum := by
  induction branches with
  | nil => rfl
  | cons branch branches ih =>
    have here : branch.places = 1 + branch.linearSteps := rfl
    simp only [List.map_cons, List.sum_cons, List.length_cons, ih, here]
    omega

private theorem countKind_ok (projects : Projects scopes node members)
    (straight : ∀ split, node = .split split → ∀ (ordinal : Nat) (branch : SplitBranch FlowGraph),
      split.branches[ordinal]? = some branch →
      scopes[(split.id, ordinal)]?.isSome = branch.flow.isSome)
    (known : ∀ leaf, node ≠ .customLeaf leaf) (fits : nodes + node.embedded ≤ maxNodes) :
    countKind members nodes transitions = .ok (nodes + node.embedded, transitions) := by
  have kind := kindOf_projects projects
  unfold countKind
  rw [kind]
  cases node with
  | step _ | decision _ | join _ => rfl
  | customLeaf leaf => exact absurd rfl (known leaf)
  | nestedJob node =>
    have shaped : (hasObject "child" members && hasArray "parameters" members &&
        hasStr "mapping_revision" members) = true := by
      unfold hasObject hasArray hasStr
      rw [projects _ (by decide), projects _ (by decide), projects _ (by decide)]
      simp [advancedNodeValue, FlowNode.manifestValue, NestedJobNode.manifestValue, text,
        Json.asObject, Json.asArray, Json.asStr]
    change (validateNestedJobManifest members >>= fun _ => _) = _
    rw [validateNestedJobManifest, shaped, require_true, ok_bind]
    rfl
  | partitionedStep node =>
    have worker : hasObject "worker" members = true := by
      unfold hasObject
      rw [projects _ (by decide)]
      have isObject := Option.isSome_iff_ne_none.mpr (asObject_step node.worker)
      simpa [advancedNodeValue, FlowNode.manifestValue, PartitionedStepNode.manifestValue]
        using isObject
    have one : checkedAdd nodes 1 = .ok (nodes + 1) := checkedAdd_ok (Nat.le_add_right_of_le fits)
    change (require (hasObject "worker" members) >>= fun _ => _) = _
    rw [worker, require_true, ok_bind, one]
    rfl
  | split node =>
    have total : FlowNode.embedded (.split node) =
        node.branches.length + (node.branches.map (·.linearSteps)).sum := sum_places node.branches
    rw [total] at fits ⊢
    have branches : member? "branches" members =
        some (.array (node.branches.zipIdx.map (branchManifest scopes node.id))) := by
      rw [projects _ (by decide)]
      simp [advancedNodeValue, splitManifest]
    change (readable ((member? "branches" members).bind Json.asArray) >>= fun _ => _) = _
    rw [branches]
    change (checkedAdd nodes (node.branches.zipIdx.map (branchManifest scopes node.id)).length >>=
      fun _ => _) = _
    rw [List.length_map, List.length_zipIdx, checkedAdd_ok (by omega), ok_bind,
      countBranches_ok node.branches 0 (by
        intro ordinal branch found
        rw [Nat.zero_add]
        exact straight node rfl ordinal branch found) (by omega), ok_bind, Nat.add_assoc]
    rfl

theorem countNode_ok (projects : Projects scopes node members)
    (straight : ∀ split, node = .split split → ∀ (ordinal : Nat) (branch : SplitBranch FlowGraph),
      split.branches[ordinal]? = some branch →
      scopes[(split.id, ordinal)]?.isSome = branch.flow.isSome)
    (known : ∀ leaf, node ≠ .customLeaf leaf) (fits : nodes + node.embedded ≤ maxNodes)
    (few : transitions ≤ maxTransitions) :
    countNode (nodes, transitions) (.object members) = .ok (nodes + node.embedded, transitions) := by
  unfold countNode
  simp only [Json.asObject, readable_some, ok_bind]
  rw [countKind_ok projects straight known fits, ok_bind, ensureGraphBounds_ok fits few, ok_bind]
  rfl

theorem countNode_nested (owner : NodeId) (record : NestedRecord) (fits : nodes ≤ maxNodes)
    (few : transitions + record.exits.length ≤ maxTransitions) :
    countNode (nodes, transitions) (nestedManifest owner record) =
      .ok (nodes, transitions + record.exits.length) := by
  let members : Members := [("entry", text record.scope.entry),
    ("exits", .array (record.exits.map FlowTransition.manifestValue)), ("id", text owner),
    ("kind", .string "nested_flow"), ("members", membersManifest record.scope)]
  have kind : kindOf members = some "nested_flow" := by
    simp [members, kindOf, Json.asStr]
  have exits : arrayLen (member? "exits" members) = .ok record.exits.length := by
    rw [@arrayLen_array _ _ (record.exits.map FlowTransition.manifestValue) (by simp [members]),
      List.length_map]
  have shaped : (hasArray "members" members && hasStr "entry" members) = true := by
    simp [members, hasArray, hasStr, membersManifest, text, Json.asArray, Json.asStr]
  have counted : countKind members nodes transitions =
      .ok (nodes, transitions + record.exits.length) := by
    unfold countKind
    rw [kind]
    change (arrayLen (member? "exits" members) >>= fun _ => _) = _
    rw [exits, ok_bind, shaped, require_true, ok_bind, checkedAdd_ok (by omega), ok_bind]
    rfl
  change countNode (nodes, transitions) (.object members) = _
  unfold countNode
  simp only [Json.asObject, readable_some, ok_bind]
  rw [counted, ok_bind, ensureGraphBounds_ok fits few, ok_bind]
  rfl

/-- The reader has no case for custom leaves. -/
theorem countNode_customLeaf {leaf : CustomLeafNode}
    (projects : Projects scopes (.customLeaf leaf) members) (counts : Nat × Nat) :
    countNode counts (.object members) = .error .malformedGraph := by
  have kind := kindOf_projects projects
  have counted : countKind members counts.1 counts.2 = .error .malformedGraph := by
    unfold countKind
    rw [kind]
    rfl
  unfold countNode
  simp only [Json.asObject, readable_some, ok_bind]
  rw [counted]
  rfl

end Count

end OxideBatch.Plan
