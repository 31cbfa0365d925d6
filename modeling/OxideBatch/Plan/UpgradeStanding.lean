import OxideBatch.Plan.UpgradeFind

/-! What stands in the manifest of a flat flow: its nodes, the steps inside them, and the
interceptors of their repeat wrappers, and nothing else that looks like a node. -/

namespace OxideBatch.Plan

open OxideBatch.Core Program
open Json (member? hasMember insertMember objects memberObjects)
open Std (ExtTreeMap ExtTreeSet)

section Silent

theorem Silent.kindless {members : List (String × Json)} (absent : member? "kind" members = none) :
    Silent members := by
  left
  unfold memberStr
  rw [absent]
  rfl

theorem Silent.nameless {members : List (String × Json)} (absent : member? "id" members = none) :
    Silent members := by
  right
  unfold memberStr
  rw [absent]
  rfl

private theorem silent_startControls (controls : StartControls) :
    (startControlsManifest controls).Every Silent := by
  unfold startControlsManifest
  dsimp only
  split
  · apply Json.Every.withMember
    · simp [Silent.kindless, number]
    · simp
    · intro members same
      cases same
      exact .kindless (by simp [Json.member?_insertMember])
  · simp [Silent.kindless, number]

private theorem silent_chunkDeclaration (revisions : ChunkComponentRevisions) :
    (chunkDeclarationManifest revisions).Every Silent := by
  unfold chunkDeclarationManifest
  dsimp only
  split
  · apply Json.Every.withMember
    · simp [Silent.kindless, text, number]
    · simp
    · intro members same
      cases same
      exact .kindless (by simp [Json.member?_insertMember])
  · simp [Silent.kindless, text, number]

private theorem silent_components (components : StepComponents) :
    components.manifestValue.Every Silent := by
  cases components with
  | tasklet revision => simp [StepComponents.manifestValue, Silent.kindless, text]
  | chunk size revisions =>
    obtain ⟨members, shown⟩ := object_of_asObject (asObject_chunkDeclaration revisions)
    have declared := silent_chunkDeclaration revisions
    have kindless : member? "kind" members = none := by
      rw [← Json.get?_object, ← shown, get?_chunkDeclaration _ (by decide)]
      simp
    simp only [StepComponents.manifestValue]
    rw [shown] at declared ⊢
    apply Json.Every.withMember
    · apply Json.Every.withMember declared
      · simp [number]
      · intro held same
        cases same
        exact .kindless (by simp [Json.member?_insertMember, kindless])
    · simp
    · intro held same
      cases same
      exact .kindless (by simp [Json.member?_insertMember, kindless])

private theorem silent_fault (fault : Option FaultPolicy) :
    (policyManifest fault).Every Silent := by
  have skipped : ∀ skip : Option RollbackDisposition,
      ((skip.map fun skip => Json.string skip.asStr).getD .null).Every Silent := by
    intro skip
    cases skip with
    | none => simp
    | some _ => simp
  cases fault with
  | none => simp [policyManifest]
  | some policy =>
    simp only [policyManifest, Option.map_some, Option.getD_some, faultManifestValue,
      Json.every_object, Json.everyMember_cons, Json.everyMember_nil, Json.every_array,
      List.mem_map, and_true]
    simp [Silent.nameless, text, number, faultRuleManifest, skipped]

private theorem silent_listeners (listeners : List ComponentRevision) :
    (listenersManifest listeners).Every Silent := by
  simp [listenersManifest, text]

private theorem silent_path (path : List String) : (pathManifest path).Every Silent := by
  simp [pathManifest]

private theorem silent_mapping (mapping : NestedJobParameterMapping) :
    mapping.manifestValue.Every Silent := by
  have source : mapping.source.manifestValue.Every Silent := by
    cases mapping.source <;>
      simp [NestedJobParameterSource.manifestValue, Silent.nameless, text, number, silent_path]
  simp [NestedJobParameterMapping.manifestValue, Silent.nameless, text, source]

private theorem silent_transitions (transitions : Edges) :
    (transitionsManifest transitions).Every Silent := by
  rw [transitionsManifest, Json.every_array]
  intro value member
  obtain ⟨edge, _, rfl⟩ := List.mem_map.mp member
  have target : (flowTargetManifest edge.target).Every Silent := by
    cases edge.target <;> simp [flowTargetManifest, Silent.nameless, text]
  simp [FlowTransition.manifestValue, Silent.nameless, text, target]

private theorem silent_scopedComponent (component : ScopedComponentDefinition) :
    component.manifestValue.Every Silent := by
  have source : ∀ source : LateBoundSource, source.manifestValue.Every Silent := by
    intro source
    cases source <;> simp [LateBoundSource.manifestValue, Silent.nameless, text, number, silent_path]
  simp [ScopedComponentDefinition.manifestValue, LateBoundInput.manifestValue, Silent.kindless,
    Silent.nameless, text, source]

private theorem silent_incrementer (identity : ParameterIncrementerIdentity) :
    (incrementerManifest identity).Every Silent := by
  simp [incrementerManifest, Silent.nameless, text]

end Silent

section Steps

private theorem shows_interceptor (interceptor : RepeatInterceptorDefinition) :
    Shows (.intercepting interceptor)
      [("id", text interceptor.id), ("kind", text interceptor.kind),
        ("revision", text interceptor.revision)] := by
  let members : List (String × Json) :=
    [("id", text interceptor.id), ("kind", text interceptor.kind),
      ("revision", text interceptor.revision)]
  have kind : memberStr "kind" members = some interceptor.kind.value :=
    memberStr_text (by simp [members])
  refine ⟨memberStr_text (by simp [Standing.id]), kind, ?_⟩
  change graphNodeDurableStateContracts members =
    if interceptor.kind.value ∈ stateKinds then .error .manifestEncoding else .ok []
  by_cases stateful : interceptor.kind.value ∈ stateKinds
  · rw [if_pos stateful]
    have named : interceptor.kind.value = "step" ∨ interceptor.kind.value = "custom_leaf" := by
      simpa [stateKinds] using stateful
    unfold graphNodeDurableStateContracts
    rw [kind]
    rcases named with step | leaf
    · rw [step]
      rfl
    · rw [leaf]
      rfl
  · rw [if_neg stateful]
    exact graphContracts_other kind stateful

private theorem presents_interceptors (interceptors : List RepeatInterceptorDefinition) :
    Presents (interceptors.map .intercepting)
      (Json.array (interceptors.map RepeatInterceptorDefinition.manifestValue)).objects := by
  rw [Json.objects_array, List.flatMap_map, List.map_eq_flatMap]
  apply Presents.flatMap
  intro interceptor _
  unfold RepeatInterceptorDefinition.manifestValue
  rw [Json.objects_object]
  refine .shown (shows_interceptor interceptor) ?_
  simp only [Json.memberObjects_cons, Json.memberObjects_nil, text, Json.objects_string,
    List.append_nil]
  exact .nil

/-- The interceptors of a wrapper, then those of the wrappers nested in it. -/
private theorem presents_repeat (level : RepeatLevel) (nested : List RepeatLevel) :
    Presents (((level :: nested).flatMap (·.interceptors)).map .intercepting)
      (repeatManifest level nested).objects := by
  have policy : ∀ level : RepeatLevel, Presents [] level.policy.manifestValue.objects := by
    intro level
    apply presents_silent
    simp [RepeatPolicyDefinition.manifestValue, Silent.nameless, text]
  have state : ∀ level : RepeatLevel, Presents [] level.state.manifestValue.objects := by
    intro level
    apply presents_silent
    simp [RepeatStateSchema.manifestValue, Silent.nameless, text, number]
  induction nested generalizing level with
  | nil =>
    have shape : (repeatManifest level []).objects = _ :: _ := Json.objects_object _
    rw [shape]
    refine .silent (.kindless (by simp)) ?_
    simp only [Json.memberObjects_cons, Json.memberObjects_nil, List.append_nil]
    have whole := (presents_interceptors level.interceptors).append ((policy level).append (state level))
    simpa [text] using whole
  | cons inner deeper ih =>
    have shape : repeatManifest level (inner :: deeper) = .object
        [("id", text level.id),
         ("interceptors", .array
          (level.interceptors.map RepeatInterceptorDefinition.manifestValue)),
         ("nested", repeatManifest inner deeper),
         ("policy", level.policy.manifestValue),
         ("state", level.state.manifestValue)] := by
      change Json.object (insertMember "nested" (repeatManifest inner deeper)
        [("id", _), ("interceptors", _), ("policy", _), ("state", _)]) = _
      rw [Json.insertMember_after (by decide) (by decide),
        Json.insertMember_after (by decide) (by decide), Json.insertMember_before (by decide)]
    rw [shape, Json.objects_object]
    refine .silent (.kindless (by simp)) ?_
    simp only [Json.memberObjects_cons, Json.memberObjects_nil, List.append_nil]
    have whole := (presents_interceptors level.interceptors).append
      ((ih inner).append ((policy level).append (state level)))
    simpa [text] using whole

theorem get?_repeat (step : StepNode) :
    step.manifestValue.get? "repeat" = step.repeatDefinition.map (·.manifestValue) := by
  unfold StepNode.manifestValue
  cases step.repeatDefinition with
  | none => simp
  | some definition =>
    dsimp only
    rw [Json.get?_withMember (by simp [Json.asObject]), if_pos rfl]
    rfl

/-- A step object declares the step's contracts, whatever other members it has. -/
private theorem contracts_step {members : List (String × Json)} (step : StepNode)
    (same : ∀ key, key ≠ "decision_sequence" → member? key members = step.manifestValue.get? key) :
    graphNodeDurableStateContracts members = .ok step.contracts := by
  apply graphContracts_step
  · unfold memberStr
    rw [same _ (by decide), get?_step step (by decide)]
    simp [Json.asStr]
  · rw [same _ (by decide), get?_step step (by decide)]
    simp
  · rw [same _ (by decide), get?_repeat]

private theorem shows_step {members : List (String × Json)} (step : StepNode)
    (shown : step.manifestValue = .object members) : Shows (.embedded step) members := by
  have same : ∀ key, member? key members = step.manifestValue.get? key := by
    intro key
    rw [shown, Json.get?_object]
  refine ⟨memberStr_text ?_, ?_, contracts_step step fun key _ => same key⟩
  · rw [same, get?_step step (by decide)]
    simp [Standing.id]
  · unfold memberStr
    rw [same, get?_step step (by decide)]
    simp [Json.asStr, Standing.kind]

/-- Below a step stand the interceptors of its wrappers. -/
private theorem presents_below_step {members : List (String × Json)} (step : StepNode)
    (shown : step.manifestValue = .object members) :
    Presents (step.interceptors.map .intercepting) (memberObjects members) := by
  have listeners := presents_silent _ (silent_listeners step.listeners)
  have policy := presents_silent _ (silent_fault step.fault)
  have start := presents_silent _ (silent_startControls step.start)
  have components : Presents [] (Json.object
      [("declaration", step.components.manifestValue),
       ("kind", .string step.components.kindName),
       ("name", text step.stepName)]).objects := by
    apply presents_silent
    simp [Silent.nameless, silent_components, text]
  have early := listeners.append policy
  have late := start.append components
  unfold StepNode.manifestValue at shown
  unfold StepNode.interceptors StepNode.repeatLevels
  cases wrapper : step.repeatDefinition with
  | none =>
    rw [wrapper] at shown
    cases shown
    have whole := early.append late
    simpa [text] using whole
  | some definition =>
    rw [wrapper] at shown
    have repeats := presents_repeat definition.outer definition.nested
    have shape : members =
        [("id", text step.id),
         ("kind", .string "step"),
         ("listeners", listenersManifest step.listeners),
         ("policy", policyManifest step.fault),
         ("repeat", definition.manifestValue),
         ("start", startControlsManifest step.start),
         ("step", .object
          [("declaration", step.components.manifestValue),
           ("kind", .string step.components.kindName),
           ("name", text step.stepName)])] := by
      have inserted := Json.object.inj shown
      rw [← inserted, Json.insertMember_after (by decide) (by decide),
        Json.insertMember_after (by decide) (by decide),
        Json.insertMember_after (by decide) (by decide),
        Json.insertMember_after (by decide) (by decide), Json.insertMember_before (by decide)]
    rw [shape]
    have whole := early.append (repeats.append late)
    simpa [text, RepeatDefinition.manifestValue, RepeatDefinition.levels] using whole

private theorem presents_step (step : StepNode) :
    Presents step.standing step.manifestValue.objects := by
  obtain ⟨members, shown⟩ := object_of_asObject (asObject_step step)
  rw [shown, Json.objects_object]
  exact .shown (shows_step step shown) (presents_below_step step shown)

private theorem presents_steps (steps : List StepNode) :
    Presents (steps.flatMap (·.standing))
      (Json.array (steps.map StepNode.manifestValue)).objects := by
  rw [Json.objects_array, List.flatMap_map]
  exact Presents.flatMap fun step _ => presents_step step

end Steps

section Nodes

variable {scopes : BranchScopes} {node : FlowNode FlowGraph} {members : List (String × Json)}

private theorem contracts_projects (projects : Projects scopes node members) :
    graphNodeDurableStateContracts members = .ok node.contracts := by
  have named : memberStr "kind" members = some node.kindName := kindOf_projects projects
  cases node with
  | step step => exact contracts_step step projects
  | customLeaf leaf =>
    have state : member? "state_schema" members = some (.object
        [("id", text leaf.stateSchemaId), ("version", number leaf.stateSchemaVersion.get)]) := by
      rw [projects _ (by decide)]
      simp [advancedNodeValue, FlowNode.manifestValue, CustomLeafNode.manifestValue]
    unfold graphNodeDurableStateContracts
    rw [named]
    simp only [FlowNode.kindName]
    rw [state, orMalformed_some, accept_bind, schemaContract_object _ _ _ _ "id" (by decide),
      accept_bind]
    rfl
  | decision _ | nestedJob _ | split _ | join _ | partitionedStep _ =>
    exact graphContracts_other named (by simp [stateKinds, FlowNode.kindName])

private theorem shows_node (projects : Projects scopes node members) : Shows
    (.declared node) members :=
  ⟨id_projects projects, kindOf_projects projects, contracts_projects projects⟩

/-- The steps of linear branches stand in their order. -/
private theorem presents_branches {split : NodeId} (branches : List (SplitBranch FlowGraph))
    (start : Nat)
    (linear : ∀ branch ∈ branches, branch.flow = none)
    (straight : ∀ (ordinal : Nat) (branch : SplitBranch FlowGraph),
      branches[ordinal]? = some branch →
      scopes[(split, start + ordinal)]?.isSome = branch.flow.isSome) :
    Presents ((branches.flatMap (·.declaredSteps)).flatMap (·.standing))
      (((branches.zipIdx start).map (branchManifest scopes split)).flatMap objects) := by
  induction branches generalizing start with
  | nil => exact .nil
  | cons branch branches ih =>
    have flowless : branch.flow = none := linear branch List.mem_cons_self
    have unplaced : scopes[(split, start)]? = none := by
      have here := straight 0 branch rfl
      rw [flowless, Nat.add_zero] at here
      exact Option.isSome_eq_false_iff.mp here |> Option.isNone_iff_eq_none.mp
    have declared : branch.declaredSteps = branch.steps := by
      rw [SplitBranch.declaredSteps, flowless]
      rfl
    have shape : branchManifest scopes split (branch, start) = .object
        [("kind", .string "linear"), ("ordinal", number (start + 1)),
          ("steps", .array (branch.steps.map StepNode.manifestValue))] := by
      unfold branchManifest
      rw [unplaced]
    rw [List.zipIdx_cons, List.map_cons, List.flatMap_cons, List.flatMap_cons, List.flatMap_append,
      shape, declared, Json.objects_object]
    refine Presents.append (.silent ?_ ?_) (ih (start + 1)
      (fun other member => linear other (List.mem_cons_of_mem _ member)) ?_)
    · exact .nameless (by simp)
    · have steps := presents_steps branch.steps
      simpa only [Json.memberObjects_cons, Json.memberObjects_nil, Json.objects_string, number,
        Json.objects_integer, List.nil_append, List.append_nil] using steps
    · intro ordinal branch found
      rw [Nat.add_assoc, Nat.add_comm 1]
      exact straight (ordinal + 1) branch found

private theorem presents_below_node (flat : node.Flat)
    (straight : ∀ split, node = .split split → ∀ (ordinal : Nat) (branch : SplitBranch FlowGraph),
      split.branches[ordinal]? = some branch →
      scopes[(split.id, ordinal)]?.isSome = branch.flow.isSome)
    (shown : advancedNodeValue scopes node = .object members) :
    ∃ below, node.standing = .declared node :: below ∧ Presents below (memberObjects members) := by
  cases node with
  | step step => exact ⟨_, rfl, presents_below_step step shown⟩
  | split split =>
    refine ⟨_, rfl, ?_⟩
    cases shown
    have branches := presents_branches split.branches 0 flat (fun ordinal branch found => by
      rw [Nat.zero_add]
      exact straight split rfl ordinal branch found)
    simpa [text, FlowNode.embeddedSteps] using branches
  | partitionedStep node =>
    refine ⟨_, rfl, ?_⟩
    cases shown
    have start := presents_silent _ (silent_startControls node.start)
    have whole := start.append (presents_step node.worker)
    simpa [text, number, FlowNode.embeddedSteps] using whole
  | decision node =>
    refine ⟨[], rfl, presents_silent_members _ ?_⟩
    cases shown
    simp [Silent.nameless, text, number]
  | nestedJob node =>
    refine ⟨[], rfl, presents_silent_members _ ?_⟩
    cases shown
    simp [Silent.nameless, text, number, silent_mapping]
  | customLeaf node =>
    refine ⟨[], rfl, presents_silent_members _ ?_⟩
    cases shown
    simp [Silent.kindless, text, number, silent_listeners, silent_fault, silent_startControls]
  | join node =>
    refine ⟨[], rfl, presents_silent_members _ ?_⟩
    cases shown
    simp [text]

private theorem sequenceless (scopes : BranchScopes) (node : FlowNode FlowGraph) :
    (advancedNodeValue scopes node).get? "decision_sequence" = none := by
  cases node with
  | step step =>
    change step.manifestValue.get? "decision_sequence" = none
    rw [get?_step step (by decide)]
    simp
  | split node => simp [advancedNodeValue, splitManifest]
  | decision _ | nestedJob _ | customLeaf _ | join _ | partitionedStep _ =>
    simp [advancedNodeValue, FlowNode.manifestValue, DecisionNode.manifestValue,
      NestedJobNode.manifestValue, CustomLeafNode.manifestValue, JoinNode.manifestValue,
      PartitionedStepNode.manifestValue]

theorem presents_node (flat : node.Flat)
    (straight : ∀ split, node = .split split → ∀ (ordinal : Nat) (branch : SplitBranch FlowGraph),
      split.branches[ordinal]? = some branch →
      scopes[(split.id, ordinal)]?.isSome = branch.flow.isSome) (sequence : Option Nat) :
    Presents node.standing (advancedNodeManifest scopes node sequence).objects := by
  obtain ⟨held, value⟩ := object_of_asObject (asObject_advancedNodeValue scopes node)
  obtain ⟨below, standing, presents⟩ := presents_below_node flat straight value
  obtain ⟨members, shown, projects⟩ := projects_advancedNodeManifest scopes node sequence
  have same : memberObjects members = memberObjects held := by
    cases sequence with
    | none =>
      have equal : Json.object members = .object held := shown.symm.trans value
      rw [Json.object.inj equal]
    | some place =>
      unfold advancedNodeManifest at shown
      rw [value] at shown
      have inserted : insertMember "decision_sequence" (number place) held = members :=
        Json.object.inj shown
      rw [← inserted]
      apply Json.memberObjects_insertMember (by simp [number])
      rw [← Json.get?_object, ← value]
      exact sequenceless scopes node
  rw [standing, shown, Json.objects_object, same]
  exact .shown (shows_node projects) presents

end Nodes

section Documents

variable {standings : List Standing}

/-- What two lists of objects present is what they present one after the other. -/
theorem Presents.split {left right : List (List (String × Json))}
    (presents : Presents standings (left ++ right)) :
    ∃ first second, standings = first ++ second ∧ Presents first left ∧ Presents second right := by
  induction left generalizing standings with
  | nil => exact ⟨[], standings, rfl, .nil, presents⟩
  | cons members left ih =>
    cases presents with
    | silent quiet later =>
      obtain ⟨first, second, rfl, here, there⟩ := ih later
      exact ⟨first, second, rfl, .silent quiet here, there⟩
    | @shown standing _ _ _ shows later =>
      obtain ⟨first, second, rfl, here, there⟩ := ih later
      exact ⟨standing :: first, second, rfl, .shown shows here, there⟩

/-- A new silent member presents nothing more. -/
theorem Presents.insertMember {key : String} {value : Json} {members : List (String × Json)}
    (presents : Presents standings (memberObjects members)) (quiet : value.Every Silent)
    (absent : member? key members = none) :
    Presents standings (memberObjects (insertMember key value members)) := by
  induction members generalizing standings with
  | nil =>
    have whole := (presents_silent value quiet).append presents
    simpa [Json.insertMember] using whole
  | cons head members ih =>
    obtain ⟨other, held⟩ := head
    rw [Json.member?_cons] at absent
    have different : key ≠ other := by
      rintro rfl
      simp at absent
    rw [if_neg (Ne.symm different)] at absent
    by_cases before : key < other
    · rw [Json.insertMember_before before, Json.memberObjects_cons]
      exact (presents_silent value quiet).append presents
    · rw [Json.insertMember_after before different, Json.memberObjects_cons]
      rw [Json.memberObjects_cons] at presents
      obtain ⟨first, second, rfl, here, there⟩ := presents.split
      exact here.append (ih there absent)

/-- A top-level object presents what its nodes do. -/
structure PresentsTop (standings : List Standing) (members : List (String × Json)) : Prop where
  kindless : member? "kind" members = none
  presents : Presents standings (memberObjects members)

theorem PresentsTop.insertMember {key : String} {value : Json} {members : List (String × Json)}
    (top : PresentsTop standings members) (quiet : value.Every Silent) (other : key ≠ "kind")
    (absent : member? key members = none) :
    PresentsTop standings (insertMember key value members) := by
  refine ⟨?_, top.presents.insertMember quiet absent⟩
  rw [Json.member?_insertMember, if_neg other]
  exact top.kindless

theorem PresentsTop.objects {members : List (String × Json)} (top : PresentsTop standings members) :
    Presents standings (Json.object members).objects := by
  rw [Json.objects_object]
  exact .silent (.kindless top.kindless) top.presents

theorem presents_plain {entry job : Json} {format : Nat} {values : List Json} {transitions : Edges}
    (entryQuiet : entry.objects = []) (jobQuiet : job.objects = [])
    (nodes : Presents standings (values.flatMap objects)) :
    PresentsTop standings
      [("entry", entry), ("format", number format), ("job", job), ("nodes", .array values),
        ("transitions", transitionsManifest transitions)] := by
  refine ⟨by simp, ?_⟩
  have whole := nodes.append (presents_silent _ (silent_transitions transitions))
  simpa [number, entryQuiet, jobQuiet] using whole

theorem presents_manifest {compiler : AdvancedCompiler} {jobName : JobName}
    {scope : CompiledFlowScope} {incrementer : Option ParameterIncrementerIdentity}
    (nodes : Presents standings (compiler.nodeValues.values.flatMap objects)) :
    Presents standings (compiler.manifest jobName scope incrementer).objects := by
  let plain : List (String × Json) :=
    [("entry", text scope.entry),
     ("format", number manifestFormatAdvancedFlow),
     ("job", text jobName),
     ("nodes", .array compiler.nodeValues.values),
     ("transitions", transitionsManifest compiler.transitions)]
  let restart :=
    if compiler.jobRestartPolicy = .notRestartable then
      insertMember "restart_policy" (.string "not_restartable") plain
    else plain
  let increment := incrementer.elim restart fun identity =>
    insertMember "parameter_incrementer" (incrementerManifest identity) restart
  let members :=
    if compiler.scopedComponents.isEmpty then increment
    else insertMember "scoped_components"
      (.array (compiler.scopedComponents.values.map ScopedComponentDefinition.manifestValue))
      increment
  have shape : compiler.manifest jobName scope incrementer = .object members := by
    simp only [AdvancedCompiler.manifest, members, increment, restart, plain]
    cases compiler.jobRestartPolicy <;> cases incrementer <;>
      cases compiler.scopedComponents.isEmpty <;> rfl
  have plainTop : PresentsTop standings plain :=
    presents_plain (by simp [text]) (by simp [text]) nodes
  have restartTop : PresentsTop standings restart := by
    simp only [restart]
    split
    · exact plainTop.insertMember (by simp) (by decide) (by simp [plain])
    · exact plainTop
  have fresh : member? "parameter_incrementer" restart = none := by
    simp only [restart]
    split <;> simp [plain, Json.member?_insertMember]
  have incrementTop : PresentsTop standings increment := by
    simp only [increment]
    cases incrementer with
    | none => exact restartTop
    | some identity => exact restartTop.insertMember (silent_incrementer identity) (by decide) fresh
  have later : member? "scoped_components" restart = none := by
    simp only [restart]
    split <;> simp [plain, Json.member?_insertMember]
  have fresh' : member? "scoped_components" increment = none := by
    simp only [increment]
    cases incrementer with
    | none => exact later
    | some identity =>
      rw [Option.elim_some, Json.member?_insertMember, if_neg (by decide)]
      exact later
  have top : PresentsTop standings members := by
    simp only [members]
    split
    · exact incrementTop
    · refine incrementTop.insertMember ?_ (by decide) fresh'
      rw [Json.every_array]
      intro value member
      obtain ⟨component, _, rfl⟩ := List.mem_map.mp member
      exact silent_scopedComponent component
  rw [shape]
  exact top.objects

end Documents

end OxideBatch.Plan
