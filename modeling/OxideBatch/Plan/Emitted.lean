import OxideBatch.Plan.ManifestShape
import OxideBatch.Plan.TallyCompile

/-! The manifest document behind a compiled plan, its members, and the identity that
`FlowGraph::compile` binds to it. -/

namespace OxideBatch.Plan

open OxideBatch.Core Program
open Json (member? hasMember insertMember)
open Std (ExtTreeMap ExtTreeSet)

/-- `serde_json` reads back the documents it writes; floats are set aside. -/
def Serde.Faithful (serde : Serde) : Prop :=
  ∀ document parsed bytes, document.containsFloat = false → serde.toVec document = some bytes →
    serde.fromSlice bytes = some parsed → parsed = document

section Identity

/-- The identity bound to a manifest. -/
structure Identified (serde : Serde) (jobName : JobName) (document : Json)
    (definition : DefinitionIdentity) : Prop where
  encoded : serde.toVec document = some definition.canonicalManifest
  few : definition.canonicalManifest.length ≤ maxManifestBytes
  digest : definition.manifestDigest = serde.sha256 definition.canonicalManifest
  job : definition.jobName = some jobName
  parsed : ∃ parsed, serde.fromSlice definition.canonicalManifest = some parsed ∧
    serde.toVec parsed = some definition.canonicalManifest ∧
    flowFormat parsed = some definition.manifestFormat

private theorem identifyManifest_identified
    (identified : identifyManifest serde jobName revision document = .ok definition) :
    Identified serde jobName document definition := by
  unfold identifyManifest at identified
  cases encoded : serde.toVec document with
  | none =>
    rw [encoded] at identified
    cases identified
  | some canonical =>
    rw [encoded] at identified
    unfold fromFlowManifest at identified
    dsimp only at identified
    split at identified
    · cases identified
    · rename_i few
      cases read : serde.fromSlice canonical with
      | none =>
        rw [read] at identified
        cases identified
      | some parsed =>
        rw [read] at identified
        dsimp only at identified
        split at identified
        · cases identified
        · rename_i same
          rw [not_or, not_not] at same
          cases format : flowFormat parsed with
          | none =>
            rw [format] at identified
            cases identified
          | some format' =>
            rw [format] at identified
            cases identified
            exact ⟨encoded, Nat.le_of_not_lt few, rfl, rfl, parsed, read, same.2, format⟩

/-- The reader gets the document that was written. -/
theorem Identified.read (identified : Identified serde jobName document definition)
    (faithful : serde.Faithful) (integral : document.containsFloat = false) :
    serde.fromSlice definition.canonicalManifest = some document ∧
      flowFormat document = some definition.manifestFormat := by
  obtain ⟨parsed, read, _, format⟩ := identified.parsed
  have same := faithful document parsed _ integral identified.encoded read
  rw [same] at read format
  exact ⟨read, format⟩

end Identity

section Members

/-- The members of an advanced manifest. -/
structure AdvancedMembers (compiler : AdvancedCompiler) (jobName : JobName)
    (incrementer : Option ParameterIncrementerIdentity) (members : List (String × Json)) : Prop where
  every : Json.EveryMember (Tame False) members
  format : member? "format" members = some (number manifestFormatAdvancedFlow)
  job : member? "job" members = some (text jobName)
  nodes : member? "nodes" members = some (.array compiler.nodeValues.values)
  transitions : member? "transitions" members = some (transitionsManifest compiler.transitions)
  restart : ∀ policy, member? "restart_policy" members = some policy →
    policy = .string "not_restartable"
  incrementer : member? "parameter_incrementer" members = incrementer.map incrementerManifest
  components : member? "scoped_components" members =
    if compiler.scopedComponents.isEmpty then none
    else some (.array (compiler.scopedComponents.values.map ScopedComponentDefinition.manifestValue))

private theorem every_nodeValues (compiler : AdvancedCompiler) :
    ∀ value ∈ compiler.nodeValues.values, value.Every (Tame False) := by
  have general : ∀ (records : List (NodeId × NestedRecord)) (held : NodeMap Json),
      (∀ (id : NodeId) value, held[id]? = some value → value.Every (Tame False)) →
      ∀ (id : NodeId) value, (records.foldl (fun values record =>
        values.insert record.1 (nestedManifest record.1 record.2)) held)[id]? = some value →
        value.Every (Tame False) := by
    intro records
    induction records with
    | nil => exact fun _ each => each
    | cons record records ih =>
      intro held each
      apply ih
      intro id value found
      rcases Tables.lookup_insert_cases found with ⟨_, rfl⟩ | ⟨_, old⟩
      · exact every_nested record.1 record.2
      · exact each id value old
  intro value member
  obtain ⟨id, found⟩ := mem_values member
  refine general _ _ ?_ id value found
  intro id value found
  rw [ExtTreeMap.getElem?_map] at found
  cases here : compiler.nodes[id]? with
  | none =>
    rw [here] at found
    cases found
  | some node =>
    rw [here] at found
    cases found
    exact every_advancedNodeManifest _ node _

theorem advancedMembers (compiler : AdvancedCompiler) (jobName : JobName)
    (scope : CompiledFlowScope) (incrementer : Option ParameterIncrementerIdentity) :
    ∃ members, compiler.manifest jobName scope incrementer = .object members ∧
      AdvancedMembers compiler jobName incrementer members := by
  -- the members that every advanced manifest has
  let plain : List (String × Json) :=
    [("entry", text scope.entry),
     ("format", number manifestFormatAdvancedFlow),
     ("job", text jobName),
     ("nodes", .array compiler.nodeValues.values),
     ("transitions", transitionsManifest compiler.transitions)]
  let restart :=
    if compiler.jobRestartPolicy = .notRestartable then
      insertMember "restart_policy" (.string "not_restartable") plain
    else plain
  let increment := incrementer.elim restart fun identity =>
    insertMember "parameter_incrementer" (incrementerManifest identity) restart
  let members :=
    if compiler.scopedComponents.isEmpty then increment
    else insertMember "scoped_components"
      (.array (compiler.scopedComponents.values.map ScopedComponentDefinition.manifestValue))
      increment
  have lookup : ∀ key, member? key members =
      if "scoped_components" = key ∧ compiler.scopedComponents.isEmpty = false then
        some (.array (compiler.scopedComponents.values.map ScopedComponentDefinition.manifestValue))
      else if "parameter_incrementer" = key ∧ incrementer.isSome = true then
        incrementer.map incrementerManifest
      else if "restart_policy" = key ∧ compiler.jobRestartPolicy = .notRestartable then
        some (.string "not_restartable")
      else member? key plain := by
    intro key
    simp only [members, increment, restart]
    cases scopes : compiler.scopedComponents.isEmpty <;> cases incrementer <;>
      cases compiler.jobRestartPolicy <;>
      simp [Json.member?_insertMember]
  refine ⟨members, ?_, ?_⟩
  · simp only [AdvancedCompiler.manifest, members, increment, restart, plain]
    cases compiler.jobRestartPolicy <;> cases incrementer <;>
      cases compiler.scopedComponents.isEmpty <;> rfl
  · have every : Json.EveryMember (Tame False) plain := by
      simp only [plain, Json.everyMember_cons, Json.everyMember_nil, Json.every_array]
      exact ⟨by simp [text], by simp [number], by simp [text], every_nodeValues compiler,
        every_transitions _, trivial⟩
    have restartEvery : Json.EveryMember (Tame False) restart := by
      simp only [restart]
      split
      · exact Json.everyMember_insertMember (by simp) every
      · exact every
    have incrementEvery : Json.EveryMember (Tame False) increment := by
      simp only [increment]
      cases incrementer with
      | none => exact restartEvery
      | some identity =>
        apply Json.everyMember_insertMember _ restartEvery
        simp [incrementerManifest, Tame.plain, text]
    refine
      { every := ?_
        format := by rw [lookup]; simp [plain]
        job := by rw [lookup]; simp [plain]
        nodes := by rw [lookup]; simp [plain]
        transitions := by rw [lookup]; simp [plain]
        restart := ?_
        incrementer := ?_
        components := ?_ }
    · simp only [members]
      split
      · exact incrementEvery
      · apply Json.everyMember_insertMember _ incrementEvery
        rw [Json.every_array]
        intro value member
        obtain ⟨component, _, rfl⟩ := List.mem_map.mp member
        exact every_scopedComponent component
    · intro policy found
      rw [lookup] at found
      simp only [String.reduceEq, false_and, if_false, true_and] at found
      split at found
      · exact (Option.some.inj found).symm
      · simp [plain] at found
    · rw [lookup]
      cases incrementer <;> simp [plain]
    · rw [lookup]
      cases compiler.scopedComponents.isEmpty <;> simp [plain]

/-- The members of a base manifest. -/
private theorem every_flowManifest {nodes : NodeMap (FlowNode FlowGraph)}
    (restartable : ∀ node ∈ nodes.values, node.hasNonrestartableStep = false)
    (once : ∀ node ∈ nodes.values, node.hasRepeatDefinition = false) (jobName : JobName)
    (entry : NodeId) (transitions : Edges) (localScale : Bool) :
    (flowManifest jobName entry nodes transitions localScale).Every (Tame True) := by
  simp only [flowManifest, Json.every_object, Json.everyMember_cons, Json.everyMember_nil,
    Json.every_array]
  refine ⟨Tame.plain (by simp) (by simp), by simp [text], by simp [number], by simp [text], ?_,
    every_transitions _, trivial⟩
  intro value member
  obtain ⟨node, among, rfl⟩ := List.mem_map.mp member
  exact every_node (fun _ => restartable node among) fun _ => once node among

end Members

section Emitted

variable {serde : Serde} {graph : FlowGraph} {jobName : JobName} {revision : DefinitionRevision}
  {plan : CompiledExecutionPlan DefinitionIdentity}

/-- A plan of the advanced format with the compiler it comes from. -/
structure AdvancedPlan (serde : Serde) (graph : FlowGraph) (jobName : JobName)
    (plan : CompiledExecutionPlan DefinitionIdentity) (compiler : AdvancedCompiler)
    (scope : CompiledFlowScope) : Prop where
  compiled : compileScope maxFlowCompositionDepth graph .default = .ok (scope, compiler)
  nodes : plan.nodes = compiler.nodes
  identified : Identified serde jobName
    (compiler.manifest jobName scope graph.parameterIncrementer) plan.definition

/-- A plan of a base format with the stages it comes from. -/
structure BasePlan (serde : Serde) (graph : FlowGraph) (jobName : JobName)
    (revision : DefinitionRevision) (plan : CompiledExecutionPlan DefinitionIdentity)
    (entry : NodeId) (localScale : Bool) (outgoing : Edges) : Prop where
  plain : graph.requiresAdvancedFormat = false
  stages : BaseStages serde jobName revision graph entry plan.nodes localScale outgoing
    plan.definition

theorem compile_cases (compiled : graph.compile serde jobName revision = .ok plan) :
    (∃ compiler scope, AdvancedPlan serde graph jobName plan compiler scope) ∨
      ∃ entry localScale outgoing,
        BasePlan serde graph jobName revision plan entry localScale outgoing := by
  unfold FlowGraph.compile FlowGraph.compileUnder at compiled
  split at compiled
  · obtain ⟨⟨scope, compiler⟩, ran, rest⟩ := bind_eq_ok compiled
    obtain ⟨definition, identified, ending⟩ := bind_eq_ok rest
    cases ending
    exact .inl ⟨compiler, scope, ran, rfl, identifyManifest_identified identified⟩
  · rename_i plain
    obtain ⟨entry, nodes, localScale, outgoing, definition, stages, rfl⟩ :=
      compileBase_stages compiled
    exact .inr ⟨entry, localScale, outgoing, Bool.eq_false_iff.mpr plain, stages⟩

theorem AdvancedPlan.rooted (advanced : AdvancedPlan serde graph jobName plan compiler scope) :
    Rooted compiler ∧ Tallied (fun _ => False) 0 0 (fun _ => 0) (Declares graph) .default compiler :=
  compileScope_tallies _ graph _ scope compiler Rooted.default advanced.compiled

/-- The installed nodes are the declared ones, at whatever depth. -/
theorem AdvancedPlan.installed (advanced : AdvancedPlan serde graph jobName plan compiler scope)
    (id : NodeId) (node : FlowNode FlowGraph) :
    compiler.nodes[id]? = some node ↔ Declares graph node ∧ node.id = id := by
  rw [advanced.rooted.2.nodes]
  simp [AdvancedCompiler.default]

theorem AdvancedPlan.integral (_ : AdvancedPlan serde graph jobName plan compiler scope) :
    (compiler.manifest jobName scope graph.parameterIncrementer).containsFloat = false := by
  obtain ⟨members, same, shape⟩ := advancedMembers compiler jobName scope graph.parameterIncrementer
  rw [same, Json.containsFloat]
  exact Json.anyMemberFloat_of_every members shape.every

/-- A base flow has neither nested flows nor flow branches. -/
theorem BasePlan.declared (base : BasePlan serde graph jobName revision plan entry localScale outgoing)
    (id : NodeId) (node : FlowNode FlowGraph) :
    plan.nodes[id]? = some node ↔ Declares graph node ∧ node.id = id := by
  have plain := base.plain
  simp only [FlowGraph.requiresAdvancedFormat, Bool.or_eq_false_iff, List.any_eq_false] at plain
  obtain ⟨⟨_, flowless⟩, each⟩ := plain
  have collected := base.stages.collected
  rw [insertFresh_iff collected, List.mem_map]
  constructor
  · rintro ⟨other, member, same⟩
    cases same
    exact ⟨.own member, rfl⟩
  · rintro ⟨declares, rfl⟩
    refine ⟨node, ?_, rfl⟩
    cases declares with
    | own member => exact member
    | nested member _ =>
      have none : graph.nestedFlows = [] := by simpa using flowless
      rw [none] at member
      cases member
    | branch member among flow _ =>
      have simple := each _ member
      simp only [FlowNode.isAdvanced, Bool.or_eq_true, not_or, List.any_eq_true] at simple
      exact absurd ⟨_, among, by rw [flow]; rfl⟩ simple.2

theorem BasePlan.plainNode
    (base : BasePlan serde graph jobName revision plan entry localScale outgoing)
    {node : FlowNode FlowGraph} (member : node ∈ plan.nodes.values) :
    node.hasNonrestartableStep = false ∧ node.hasRepeatDefinition = false ∧
      node.isAdvanced = false := by
  have plain := base.plain
  simp only [FlowGraph.requiresAdvancedFormat, Bool.or_eq_false_iff, List.any_eq_false] at plain
  obtain ⟨id, found⟩ := mem_values member
  have collected := base.stages.collected
  obtain ⟨other, declared, same⟩ := List.mem_map.mp ((insertFresh_iff collected id node).mp found)
  cases same
  have simple := plain.2 _ declared
  simp only [Bool.or_eq_true, not_or, Bool.not_eq_true] at simple
  exact ⟨simple.1.1, simple.1.2, simple.2⟩

/-- The document of a base plan. -/
def baseDocument (jobName : JobName) (entry : NodeId) (nodes : NodeMap (FlowNode FlowGraph))
    (outgoing : Edges) (localScale : Bool) : Json :=
  flowManifest jobName entry nodes (outgoing.map fun _ edges => sortTransitions edges) localScale

theorem BasePlan.every (base : BasePlan serde graph jobName revision plan entry localScale outgoing) :
    (baseDocument jobName entry plan.nodes outgoing localScale).Every (Tame True) :=
  every_flowManifest (fun _ member => (base.plainNode member).1)
    (fun _ member => (base.plainNode member).2.1) jobName entry _ localScale

theorem BasePlan.identified
    (base : BasePlan serde graph jobName revision plan entry localScale outgoing) :
    Identified serde jobName (baseDocument jobName entry plan.nodes outgoing localScale)
      plan.definition :=
  identifyManifest_identified base.stages.identified

end Emitted

end OxideBatch.Plan
