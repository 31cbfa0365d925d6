import Mathlib
import OxideBatch.Plan.Readable

/-! What the compiler emits is read back: the reader counts what the compiler has
reserved, unless the flow declares a custom leaf. -/

namespace OxideBatch.Plan

open OxideBatch.Core Program
open Json (member? hasMember)
open Std (ExtTreeMap ExtTreeSet)

section Entries

variable {compiler : AdvancedCompiler}

/-- The places, exits, and wrappers of the entry under an identifier. -/
def AdvancedCompiler.placesAt (compiler : AdvancedCompiler) (id : NodeId) : Nat :=
  compiler.nodes[id]?.elim 0 FlowNode.embedded

def AdvancedCompiler.exitsAt (compiler : AdvancedCompiler) (id : NodeId) : Nat :=
  compiler.nestedRecords[id]?.elim 0 fun record => record.exits.length

def AdvancedCompiler.repeatsAt (compiler : AdvancedCompiler) (id : NodeId) : List RepeatId :=
  compiler.nodes[id]?.elim [] FlowNode.readRepeats

private theorem nodeValues_keys (rooted : Rooted compiler) :
    compiler.nodeValues.keys.Perm (compiler.nestedRecords.keys ++ compiler.nodes.keys) := by
  have general : ∀ (records : List (NodeId × NestedRecord)) (held : NodeMap Json),
      (records.map (·.1)).Nodup → (∀ record ∈ records, held[record.1]? = none) →
      (records.foldl (fun values record =>
        values.insert record.1 (nestedManifest record.1 record.2)) held).keys.Perm
        (records.map (·.1) ++ held.keys) := by
    intro records
    induction records with
    | nil => exact fun held _ _ => List.Perm.refl _
    | cons record records ih =>
      intro held distinct absent
      obtain ⟨away, distinct'⟩ := List.nodup_cons.mp distinct
      have fresh := absent record List.mem_cons_self
      have later := ih (held.insert record.1 (nestedManifest record.1 record.2)) distinct' (by
        intro other member
        have apart : record.1 ≠ other.1 := by
          intro same
          exact away (List.mem_map.mpr ⟨other, member, same.symm⟩)
        rw [getElem?_insert_ne apart]
        exact absent other (List.mem_cons_of_mem _ member))
      refine later.trans ?_
      refine ((Tables.keys_insert_perm fresh).append_left _).trans ?_
      exact List.perm_middle
  have keys : compiler.nestedRecords.toList.map Prod.fst = compiler.nestedRecords.keys :=
    ExtTreeMap.map_fst_toList_eq_keys
  have whole := general compiler.nestedRecords.toList
    (compiler.nodes.map fun id node => advancedNodeManifest compiler.splitBranchScopes node
      (decisionSequence (assignDecisionSequences compiler.transitions) id))
    (by rw [keys]; exact ExtTreeMap.nodup_keys)
    (by
      intro record member
      have held := ExtTreeMap.mem_toList_iff_getElem?_eq_some.mp member
      rw [ExtTreeMap.getElem?_map, (rooted.records _ _ held).2]
      rfl)
  rw [ExtTreeMap.keys_map, keys] at whole
  exact whole

/-- Sums over the keys of a table. -/
private theorem sum_keys {Value : Type} (table : NodeMap Value) (weight : Value → Nat) :
    (table.keys.map fun id => table[id]?.elim 0 weight).sum = Tables.total weight table := by
  rw [← ExtTreeMap.map_fst_toList_eq_keys, List.map_map, Tables.total]
  congr 1
  apply List.map_congr_left
  intro entry member
  have held := ExtTreeMap.mem_toList_iff_getElem?_eq_some.mp member
  simp only [Function.comp_apply, held, Option.elim_some]

private theorem sum_zero {α : Type} {values : List α} {weight : α → Nat}
    (none : ∀ value ∈ values, weight value = 0) : (values.map weight).sum = 0 := by
  apply List.sum_eq_zero
  intro number member
  obtain ⟨value, among, rfl⟩ := List.mem_map.mp member
  exact none value among

/-- A weight of the nodes, summed over all entries. -/
private theorem sum_nodes (rooted : Rooted compiler) (weight : FlowNode FlowGraph → Nat) :
    (compiler.nodeValues.keys.map fun id => compiler.nodes[id]?.elim 0 weight).sum =
      Tables.total weight compiler.nodes := by
  rw [((nodeValues_keys rooted).map _).sum_eq, List.map_append, List.sum_append, sum_keys,
    sum_zero, Nat.zero_add]
  intro id member
  obtain ⟨record, held⟩ := Tables.mem_iff_lookup.mp (ExtTreeMap.mem_keys.mp member)
  rw [(rooted.records id record held).2]
  rfl

private theorem sum_exits (rooted : Rooted compiler) :
    (compiler.nodeValues.keys.map compiler.exitsAt).sum =
      Tables.total (fun record => record.exits.length) compiler.nestedRecords := by
  rw [((nodeValues_keys rooted).map _).sum_eq, List.map_append, List.sum_append]
  unfold AdvancedCompiler.exitsAt
  rw [sum_keys, sum_zero, Nat.add_zero]
  intro id member
  obtain ⟨node, held⟩ := Tables.mem_iff_lookup.mp (ExtTreeMap.mem_keys.mp member)
  cases owned : compiler.nestedRecords[id]? with
  | none => rfl
  | some record =>
    rw [(rooted.records id record owned).2] at held
    cases held

private theorem length_nodeValues (rooted : Rooted compiler) :
    compiler.nodeValues.values.length = compiler.nodes.size + compiler.nestedRecords.size := by
  rw [Tables.values_eq, List.length_map, ExtTreeMap.length_toList, ← ExtTreeMap.length_keys,
    (nodeValues_keys rooted).length_eq, List.length_append, ExtTreeMap.length_keys,
    ExtTreeMap.length_keys, Nat.add_comm]

/-- The reader's first count and what its rounds add to it. -/
private theorem length_add_places (rooted : Rooted compiler) :
    compiler.nodeValues.values.length + (compiler.nodeValues.keys.map compiler.placesAt).sum =
      compiler.placed := by
  have places : (compiler.nodeValues.keys.map compiler.placesAt).sum =
      Tables.total FlowNode.embedded compiler.nodes := sum_nodes rooted FlowNode.embedded
  rw [length_nodeValues rooted, places, AdvancedCompiler.placed, Tables.total_add, Tables.total_one]
  omega

/-- Each entry is a projected node or a nested flow. -/
private theorem nodeValues_cases (rooted : Rooted compiler) {id : NodeId} {value : Json}
    (found : compiler.nodeValues[id]? = some value) :
    (∃ record, compiler.nestedRecords[id]? = some record ∧ compiler.nodes[id]? = none ∧
        value = nestedManifest id record) ∨
      ∃ node members, compiler.nestedRecords[id]? = none ∧ compiler.nodes[id]? = some node ∧
        value = .object members ∧ Projects compiler.splitBranchScopes node members ∧
        ∀ split, node = .split split → ∀ (ordinal : Nat) (branch : SplitBranch FlowGraph),
          split.branches[ordinal]? = some branch →
          compiler.splitBranchScopes[(split.id, ordinal)]?.isSome = branch.flow.isSome := by
  cases owned : compiler.nestedRecords[id]? with
  | some record =>
    rw [(nodeValues_lookup compiler id).1 record owned] at found
    exact .inl ⟨record, rfl, (rooted.records id record owned).2, (Option.some.inj found).symm⟩
  | none =>
    rw [(nodeValues_lookup compiler id).2 owned] at found
    cases held : compiler.nodes[id]? with
    | none =>
      rw [held] at found
      cases found
    | some node =>
      rw [held] at found
      obtain ⟨members, shown, projects⟩ := projects_advancedNodeManifest
        compiler.splitBranchScopes node
        (decisionSequence (assignDecisionSequences compiler.transitions) id)
      refine .inr ⟨node, members, rfl, rfl, ?_, projects, ?_⟩
      · rw [← shown]
        exact (Option.some.inj found).symm
      · intro split same ordinal branch place
        subst same
        have key := (rooted.nodes id _ held).1
        change split.id = id at key
        rw [key]
        exact rooted.branches id split held ordinal branch place

end Entries

section Loops

variable {compiler : AdvancedCompiler}

/-- The rounds of `advanced_graph_counts`. -/
private theorem countNodes_ok (rooted : Rooted compiler)
    (known : ∀ (id : NodeId) leaf, compiler.nodes[id]? ≠ some (.customLeaf leaf))
    (entries : List (NodeId × Json))
    (stored : ∀ entry ∈ entries, compiler.nodeValues[entry.1]? = some entry.2)
    (nodes transitions : Nat)
    (fewNodes : nodes + ((entries.map (·.1)).map compiler.placesAt).sum ≤ maxNodes)
    (fewTransitions : transitions + ((entries.map (·.1)).map compiler.exitsAt).sum ≤ maxTransitions) :
    (entries.map (·.2)).foldlM countNode (nodes, transitions) =
      .ok (nodes + ((entries.map (·.1)).map compiler.placesAt).sum,
        transitions + ((entries.map (·.1)).map compiler.exitsAt).sum) := by
  induction entries generalizing nodes transitions with
  | nil => rfl
  | cons entry entries ih =>
    obtain ⟨id, value⟩ := entry
    simp only [List.map_cons, List.sum_cons] at fewNodes fewTransitions ⊢
    have later := ih (fun entry member => stored entry (List.mem_cons_of_mem _ member))
    have here : countNode (nodes, transitions) value =
        .ok (nodes + compiler.placesAt id, transitions + compiler.exitsAt id) := by
      have found : compiler.nodeValues[id]? = some value := stored (id, value) List.mem_cons_self
      rcases nodeValues_cases rooted found with
        ⟨record, owned, absent, rfl⟩ | ⟨node, members, free, held, rfl, projects, straight⟩
      · have places : compiler.placesAt id = 0 := by
          rw [AdvancedCompiler.placesAt, absent]
          rfl
        have exits : compiler.exitsAt id = record.exits.length := by
          rw [AdvancedCompiler.exitsAt, owned]
          rfl
        rw [places] at fewNodes ⊢
        rw [exits] at fewTransitions ⊢
        exact countNode_nested id record (by omega) (by omega)
      · have places : compiler.placesAt id = node.embedded := by
          rw [AdvancedCompiler.placesAt, held]
          rfl
        have exits : compiler.exitsAt id = 0 := by
          rw [AdvancedCompiler.exitsAt, free]
          rfl
        rw [places] at fewNodes ⊢
        rw [exits] at fewTransitions ⊢
        refine countNode_ok projects straight ?_ (by omega) (by omega)
        intro leaf same
        exact known id leaf (same ▸ held)
    rw [List.foldlM_cons, here, ok_bind, later _ _ (by omega) (by omega), Nat.add_assoc,
      Nat.add_assoc]

/-- A custom leaf anywhere among the nodes stops the reader. -/
private theorem countNodes_customLeaf {values : List Json} {members : Members}
    {scopes : BranchScopes}
    {leaf : CustomLeafNode} (among : .object members ∈ values)
    (projects : Projects scopes (.customLeaf leaf) members) (counts result : Nat × Nat) :
    values.foldlM countNode counts ≠ .ok result := by
  induction values generalizing counts with
  | nil => cases among
  | cons value values ih =>
    intro ended
    rw [List.foldlM_cons] at ended
    obtain ⟨middle, here, rest⟩ := bind_eq_ok ended
    rcases List.mem_cons.mp among with rfl | later
    · rw [countNode_customLeaf projects] at here
      cases here
    · exact ih later middle rest

/-- The rounds of `validate_repeat_manifests`. -/
private theorem repeats_ok (rooted : Rooted compiler) (once : ∀ id, compiler.repeated id ≤ 1) :
    ∃ ids, compiler.nodeValues.values.foldlM validateNodeRepeat ∅ = .ok ids := by
  have keys : compiler.nodeValues.toList.map Prod.fst = compiler.nodeValues.keys :=
    ExtTreeMap.map_fst_toList_eq_keys
  have enters : Enters (fun ids => compiler.nodeValues.toList.foldlM
      (fun ids entry => validateNodeRepeat ids entry.2) ids)
      (compiler.nodeValues.toList.flatMap fun entry => compiler.repeatsAt entry.1) := by
    apply enters_foldlM
    intro entry member
    have found := ExtTreeMap.mem_toList_iff_getElem?_eq_some.mp member
    rcases nodeValues_cases rooted found with
      ⟨record, _, absent, same⟩ | ⟨node, members, _, held, same, projects, straight⟩
    · rw [same, AdvancedCompiler.repeatsAt, absent]
      exact nested_enters entry.1 record
    · rw [same, AdvancedCompiler.repeatsAt, held]
      exact node_enters projects straight
  rw [Tables.values_eq, List.foldlM_map]
  refine ⟨_, enters ∅ ?_ (by simp)⟩
  rw [List.nodup_iff_count_le_one]
  intro id
  have listed : (compiler.nodeValues.toList.flatMap fun entry => compiler.repeatsAt entry.1) =
      compiler.nodeValues.keys.flatMap compiler.repeatsAt := by
    rw [← keys, List.flatMap_map]
  have bounded : ∀ key, (compiler.repeatsAt key).count id ≤
      compiler.nodes[key]?.elim 0 fun node => node.repeatIds.count id := by
    intro key
    unfold AdvancedCompiler.repeatsAt
    cases compiler.nodes[key]? with
    | none => exact Nat.le_refl 0
    | some node => exact (readRepeats_sublist node).count_le id
  calc (compiler.nodeValues.toList.flatMap fun entry => compiler.repeatsAt entry.1).count id
      = (compiler.nodeValues.keys.map fun key => (compiler.repeatsAt key).count id).sum := by
        rw [listed, List.count_flatMap]
        rfl
    _ ≤ (compiler.nodeValues.keys.map fun key =>
          compiler.nodes[key]?.elim 0 fun node => node.repeatIds.count id).sum :=
        List.sum_le_sum fun key _ => bounded key
    _ = compiler.repeated id := sum_nodes rooted fun node => node.repeatIds.count id
    _ ≤ 1 := once id

/-- The scopes of the components that have been seen. -/
def scopeCount (scope : ScopeKind) (components : List ScopedComponentDefinition) : Nat :=
  components.countP (·.scope = scope)

private theorem countScoped_ok (components : List ScopedComponentDefinition) (jobs steps : Nat)
    (fewJobs : jobs + scopeCount .job components ≤ maxScopedComponents)
    (fewSteps : steps + scopeCount .step components ≤ maxScopedComponents) :
    (components.map ScopedComponentDefinition.manifestValue).foldlM countScoped (jobs, steps) =
      .ok (jobs + scopeCount .job components, steps + scopeCount .step components) := by
  induction components generalizing jobs steps with
  | nil => rfl
  | cons component components ih =>
    have read : ((component.manifestValue.asObject.bind (member? "scope")).bind Json.asStr) =
        some component.scope.asStr := by
      simp [ScopedComponentDefinition.manifestValue, Json.asObject, Json.asStr]
    unfold scopeCount at fewJobs fewSteps ih ⊢
    rw [List.countP_cons] at fewJobs fewSteps
    rw [List.map_cons, List.foldlM_cons, List.countP_cons, List.countP_cons, countScoped, read,
      readable_some, ok_bind]
    cases scope : component.scope with
    | job =>
      simp only [scope, decide_true, if_true, reduceCtorEq, decide_false, Bool.false_eq_true,
        if_false, Nat.add_zero] at fewJobs fewSteps ⊢
      change ((require (decide (jobs + 1 ≤ maxScopedComponents)) >>= fun _ => _) >>= _) = _
      rw [decide_eq_true (by omega), require_true, ok_bind]
      change (components.map _).foldlM countScoped (jobs + 1, steps) = _
      rw [ih (jobs + 1) steps (by omega) fewSteps, Nat.add_right_comm, Nat.add_assoc]
    | step =>
      simp only [scope, decide_true, if_true, reduceCtorEq, decide_false, Bool.false_eq_true,
        if_false, Nat.add_zero] at fewJobs fewSteps ⊢
      change ((require (decide (steps + 1 ≤ maxScopedComponents)) >>= fun _ => _) >>= _) = _
      rw [decide_eq_true (by omega), require_true, ok_bind]
      change (components.map _).foldlM countScoped (jobs, steps + 1) = _
      rw [ih jobs (steps + 1) fewJobs (by omega), Nat.add_right_comm, Nat.add_assoc]

private theorem scopeCount_values (rooted : Rooted compiler) (scope : ScopeKind) :
    scopeCount scope compiler.scopedComponents.values ≤ maxScopedComponents := by
  have few := rooted.within.components scope
  rw [← ExtTreeMap.map_fst_toList_eq_keys, List.countP_map] at few
  unfold scopeCount
  rw [Tables.values_eq, List.countP_map]
  refine Nat.le_trans (Nat.le_of_eq (List.countP_congr ?_)) few
  intro entry member
  have held := ExtTreeMap.mem_toList_iff_getElem?_eq_some.mp member
  have key := rooted.within.keyed entry.1 entry.2 held
  simp only [Function.comp_apply, decide_eq_true_eq, ← key]
  rfl

end Loops

section Checks

private theorem restartPolicyPlaced_of_tame {members : Members} (tame : Tame False members) :
    restartPolicyPlaced false members = true := by
  unfold restartPolicyPlaced
  cases found : member? "restart_policy" members with
  | none => rfl
  | some policy =>
    obtain ⟨_, limit, allow, same⟩ := tame.1 policy found
    simp [limit, allow, same, Json.asStr]

mutual

private theorem visit_ok : ∀ document : Json, document.Every (Tame False) →
    visitRestartPolicies false document = .ok ()
  | .null, _ | .bool _, _ | .integer _, _ | .string _, _ => by rw [visitRestartPolicies] <;> simp
  | .float _, every => by simp [Json.Every] at every
  | .array values, every => by
    rw [visitRestartPolicies]
    exact visitValues_ok values (by simpa only [Json.Every] using every)
  | .object members, every => by
    rw [Json.every_object] at every
    rw [visitRestartPolicies, require_ok (restartPolicyPlaced_of_tame every.1), ok_bind]
    exact visitMembers_ok members every.2

private theorem visitMembers_ok : ∀ members : Members, Json.EveryMember (Tame False) members →
    visitMembers members = .ok ()
  | [], _ => by rw [visitMembers]
  | (_, value) :: members, every => by
    rw [Json.everyMember_cons] at every
    rw [visitMembers, visit_ok value every.1, ok_bind]
    exact visitMembers_ok members every.2

private theorem visitValues_ok : ∀ values : List Json, Json.EveryValue (Tame False) values →
    visitValues values = .ok ()
  | [], _ => by rw [visitValues]
  | value :: values, every => by
    simp only [Json.EveryValue] at every
    rw [visitValues, visit_ok value every.1, ok_bind]
    exact visitValues_ok values every.2

end

private theorem validateRestartPolicyManifest_ok {members : Members}
    (every : Json.EveryMember (Tame False) members)
    (restart : ∀ policy, member? "restart_policy" members = some policy →
      policy = .string "not_restartable") :
    validateRestartPolicyManifest (.object members) = .ok () := by
  have placed : restartPolicyPlaced true members = true := by
    unfold restartPolicyPlaced
    cases found : member? "restart_policy" members with
    | none => rfl
    | some policy => simp [restart policy found, Json.asStr]
  rw [validateRestartPolicyManifest, visitRestartPolicies, require_ok placed, ok_bind]
  exact visitMembers_ok members every

private theorem validateParameterIncrementerManifest_ok {members : Members}
    {incrementer : Option ParameterIncrementerIdentity}
    (found : member? "parameter_incrementer" members = incrementer.map incrementerManifest) :
    validateParameterIncrementerManifest members = .ok () := by
  unfold validateParameterIncrementerManifest
  rw [found]
  cases incrementer with
  | none => rfl
  | some identity =>
    rw [Option.map_some]
    dsimp only
    unfold incrementerManifest
    rw [exactly_ok rfl (by simp), ok_bind, @requireToken_ok _ _ identity.kind (by simp), ok_bind,
      @requireToken_ok _ _ identity.revision (by simp)]

private theorem readJobName_ok {members : Members} {jobName : JobName}
    (found : member? "job" members = some (text jobName)) :
    readJobName members = .ok (some jobName) := by
  have valid : Token.new 128 jobName.value = some jobName := by
    rw [Token.new, dif_pos jobName.valid]
  have read : (member? "job" members).bind Json.asStr = some jobName.value := by
    rw [found]
    rfl
  unfold readJobName
  rw [read]
  dsimp only
  rw [valid]

private theorem readFormat_ok {members : Members} {format : Nat} (small : format ≤ 4)
    (found : member? "format" members = some (number format)) : readFormat members = .ok format := by
  have read : ((member? "format" members).bind Json.asU64).filter (· < 2 ^ 16) = some format := by
    rw [found, Option.bind_some, asU64_number (by omega), Option.filter_some, if_pos]
    rw [decide_eq_true_iff]
    omega
  rw [readFormat, read]

private theorem checkManifestFormat_ok {format : Nat} (positive : 0 < format) (small : format ≤ 4) :
    checkManifestFormat format = .ok () := by
  unfold checkManifestFormat supportedManifestFormat
  rw [if_neg (by omega), if_neg (by omega)]

private theorem length_transitions (transitions : Edges) :
    ((transitions.values.flatMap fun edges => edges).map FlowTransition.manifestValue).length =
      Tables.total List.length transitions := by
  rw [List.length_map, Tables.values_eq, List.length_flatMap, List.map_map, Tables.total]
  rfl

end Checks

section Reading

variable {serde : Serde} {graph : FlowGraph} {jobName : JobName} {revision : DefinitionRevision}
  {plan : CompiledExecutionPlan DefinitionIdentity}

/-- The bytes of an identity are its document. -/
theorem Identified.reads {definition : DefinitionIdentity} {members : Members}
    (identified : Identified serde jobName (.object members) definition) (faithful : serde.Faithful)
    (integral : (Json.object members).containsFloat = false) :
    DefinitionManifest.read serde definition.canonicalManifest = (do
      let format ← readFormat members
      checkManifestFormat format
      require (format = manifestFormatAdvancedFlow ||
        !(hasMember "parameter_incrementer" members ||
          (Json.object members).containsObjectKey "restart_policy"))
      let jobName ← readJobName members
      let counts ← readGraph format (.object members) members
      pure ⟨format, definition.manifestDigest, jobName, counts.map (·.1), counts.map (·.2)⟩) := by
  have parsed := (identified.read faithful integral).1
  unfold DefinitionManifest.read
  rw [if_neg (Nat.not_lt.mpr identified.few), parsed]
  simp only [Json.asObject, integral, identified.encoded]
  rw [identified.digest, if_neg Bool.false_ne_true, if_neg (not_not_intro rfl)]

theorem Identified.format_eq {definition : DefinitionIdentity} {members : Members} {format : Nat}
    (identified : Identified serde jobName (.object members) definition) (faithful : serde.Faithful)
    (integral : (Json.object members).containsFloat = false)
    (small : format ≤ 4) (found : member? "format" members = some (number format)) :
    definition.manifestFormat = format := by
  have declared := (identified.read faithful integral).2
  have read : ((Json.object members).asObject.bind (member? "format")).bind Json.asU64 =
      some format := by
    rw [Json.asObject, Option.bind_some, found, Option.bind_some, asU64_number (by omega)]
  rw [flowFormat, read, Option.filter_some] at declared
  split at declared
  · exact (Option.some.inj declared).symm
  · cases declared

/-- The compiler's own counts are those of the plan. -/
theorem AdvancedPlan.counts (advanced : AdvancedPlan serde graph jobName plan compiler scope) :
    compiler.placed = compiler.materialized ∧ compiler.connected = compiler.declaredTransitions ∧
      ∀ id, compiler.repeated id = compiler.registered id := by
  have tallied := advanced.rooted.2
  have placed : AdvancedCompiler.default.placed = 0 ∧ AdvancedCompiler.default.connected = 0 ∧
      (∀ id, AdvancedCompiler.default.repeated id = 0) ∧
      (∀ id, AdvancedCompiler.default.registered id = 0) := by
    refine ⟨?_, ?_, ?_, ?_⟩
    · simp [AdvancedCompiler.placed, AdvancedCompiler.default]
    · simp [AdvancedCompiler.connected, AdvancedCompiler.default]
    · simp [AdvancedCompiler.repeated, AdvancedCompiler.default]
    · simp [AdvancedCompiler.registered, AdvancedCompiler.default]
  obtain ⟨noPlaces, noEdges, noRepeats, noIds⟩ := placed
  have materialized : AdvancedCompiler.default.materialized = 0 := by
    simp [AdvancedCompiler.materialized, AdvancedCompiler.default]
  have declared : AdvancedCompiler.default.declaredTransitions = 0 := rfl
  refine ⟨?_, ?_, ?_⟩
  · have places := tallied.places
    omega
  · have edges := tallied.edges
    omega
  · intro id
    have repeats := tallied.repeats id
    rw [noRepeats id, noIds id] at repeats
    omega

/-- What the reader makes of the nodes of an advanced plan. -/
theorem AdvancedPlan.graphCounts (advanced : AdvancedPlan serde graph jobName plan compiler scope)
    (known : ¬ ∃ leaf, Declares graph (.customLeaf leaf)) {members : Members}
    (shape : AdvancedMembers compiler jobName graph.parameterIncrementer members) :
    advancedGraphCounts members = .ok (compiler.materialized, compiler.declaredTransitions) := by
  have rooted := advanced.rooted.1
  obtain ⟨places, edges, _⟩ := advanced.counts
  have total := length_add_places rooted
  have exits := sum_exits rooted
  have keys : compiler.nodeValues.toList.map Prod.fst = compiler.nodeValues.keys :=
    ExtTreeMap.map_fst_toList_eq_keys
  have connected : Tables.total List.length compiler.transitions +
      (compiler.nodeValues.keys.map compiler.exitsAt).sum = compiler.declaredTransitions := by
    rw [exits, ← edges]
    rfl
  have leafless : ∀ (id : NodeId) leaf, compiler.nodes[id]? ≠ some (.customLeaf leaf) := by
    intro id leaf held
    exact known ⟨leaf, ((advanced.installed id _).mp held).1⟩
  have rounds := countNodes_ok rooted leafless compiler.nodeValues.toList
    (fun entry member => ExtTreeMap.mem_toList_iff_getElem?_eq_some.mp member)
    compiler.nodeValues.values.length (Tables.total List.length compiler.transitions)
    (by rw [keys, total, places]; exact rooted.within.nodes)
    (by rw [keys, connected]; exact rooted.within.transitions)
  rw [keys, total, places, connected, ← Tables.values_eq] at rounds
  have listed : arrayLen (member? "transitions" members) =
      .ok (Tables.total List.length compiler.transitions) := by
    rw [arrayLen_array shape.transitions, length_transitions]
  unfold advancedGraphCounts
  rw [shape.nodes, listed]
  exact rounds

theorem AdvancedPlan.readGraph_ok (advanced : AdvancedPlan serde graph jobName plan compiler scope)
    (known : ¬ ∃ leaf, Declares graph (.customLeaf leaf)) {members : Members}
    (shape : AdvancedMembers compiler jobName graph.parameterIncrementer members) :
    readGraph manifestFormatAdvancedFlow (.object members) members =
      .ok (some (compiler.materialized, compiler.declaredTransitions)) := by
  have rooted := advanced.rooted.1
  have within := rooted.within
  have components : validateScopedComponents members = .ok () := by
    unfold validateScopedComponents
    rw [shape.components]
    cases empty : compiler.scopedComponents.isEmpty with
    | true => rfl
    | false =>
      have few := countScoped_ok compiler.scopedComponents.values 0 0
        (by rw [Nat.zero_add]; exact scopeCount_values rooted .job)
        (by rw [Nat.zero_add]; exact scopeCount_values rooted .step)
      have some : (compiler.scopedComponents.values.map
          ScopedComponentDefinition.manifestValue).isEmpty = false := by
        rw [Tables.values_eq, List.isEmpty_map, List.isEmpty_map, ExtTreeMap.isEmpty_toList]
        exact empty
      simp only [Bool.false_eq_true, if_false, Json.asArray, readable_some, ok_bind, some,
        Bool.not_false, require_true, few]
      rfl
  have repeats : validateRepeatManifests members = .ok () := by
    obtain ⟨ids, read⟩ := repeats_ok rooted (by
      intro id
      rw [advanced.counts.2.2 id, AdvancedCompiler.registered]
      split <;> omega)
    unfold validateRepeatManifests
    rw [shape.nodes]
    simp only [Option.bind_some, Json.asArray, readable_some, ok_bind, read]
    rfl
  unfold readGraph
  rw [if_neg (by decide), if_pos rfl,
    validateParameterIncrementerManifest_ok shape.incrementer, ok_bind,
    validateRestartPolicyManifest_ok shape.every shape.restart, ok_bind,
    advanced.graphCounts known shape, ok_bind, ensureGraphBounds_ok within.nodes within.transitions,
    ok_bind, components, ok_bind, repeats, ok_bind]
  rfl

/-- The counts that the compiler compares with `MAX_NODES` and `MAX_TRANSITIONS`. -/
def FlowGraph.counted (graph : FlowGraph) : Nat × Nat :=
  if graph.requiresAdvancedFormat then
    match (compileScope maxFlowCompositionDepth graph).run .default with
    | .ok (_, compiler) => (compiler.allIds.size + compiler.structuralBranches,
      compiler.declaredTransitions)
    | .error _ => (0, 0)
  else (graph.nodes.length, graph.transitions.length)

/-- The view of a plan's manifest. -/
def manifestView (graph : FlowGraph) (jobName : JobName)
    (plan : CompiledExecutionPlan DefinitionIdentity) : DefinitionManifest :=
  ⟨plan.definition.manifestFormat, plan.definition.manifestDigest, some jobName,
    some graph.counted.1, some graph.counted.2⟩

private theorem advancedFormat_le : manifestFormatAdvancedFlow ≤ 4 := Nat.le_refl 4

theorem AdvancedPlan.read_ok (advanced : AdvancedPlan serde graph jobName plan compiler scope)
    (required : graph.requiresAdvancedFormat = true) (faithful : serde.Faithful)
    (known : ¬ ∃ leaf, Declares graph (.customLeaf leaf)) :
    DefinitionManifest.read serde plan.definition.canonicalManifest =
      .ok (manifestView graph jobName plan) := by
  obtain ⟨members, shown, shape⟩ := advancedMembers compiler jobName scope graph.parameterIncrementer
  have identified := advanced.identified
  have integral := advanced.integral
  rw [shown] at identified integral
  have format := identified.format_eq faithful integral advancedFormat_le shape.format
  have counted : graph.counted = (compiler.materialized, compiler.declaredTransitions) := by
    have ran : (compileScope maxFlowCompositionDepth graph).run .default = .ok (scope, compiler) :=
      advanced.compiled
    rw [FlowGraph.counted, if_pos required, ran]
    rfl
  rw [identified.reads faithful integral, readFormat_ok advancedFormat_le shape.format, ok_bind,
    checkManifestFormat_ok (by decide) advancedFormat_le, ok_bind, require_ok (by simp), ok_bind,
    readJobName_ok shape.job, ok_bind, advanced.readGraph_ok known shape, ok_bind, manifestView,
    counted, format]
  rfl

/-- A custom leaf in the flow is an entry that the reader rejects. -/
theorem AdvancedPlan.read_customLeaf
    (advanced : AdvancedPlan serde graph jobName plan compiler scope) (faithful : serde.Faithful)
    {leaf : CustomLeafNode} (declared : Declares graph (.customLeaf leaf))
    (manifest : DefinitionManifest) :
    DefinitionManifest.read serde plan.definition.canonicalManifest ≠ .ok manifest := by
  obtain ⟨members, shown, shape⟩ := advancedMembers compiler jobName scope graph.parameterIncrementer
  have identified := advanced.identified
  have integral := advanced.integral
  rw [shown] at identified integral
  have rooted := advanced.rooted.1
  have held := (advanced.installed (FlowNode.customLeaf leaf).id _).mpr ⟨declared, rfl⟩
  have entry := nodeValues_node rooted held
  obtain ⟨entryMembers, entryShown, projects⟩ := projects_advancedNodeManifest
    compiler.splitBranchScopes (.customLeaf leaf) (decisionSequence
      (assignDecisionSequences compiler.transitions) (FlowNode.customLeaf leaf).id)
  rw [entryShown] at entry
  have among : Json.object entryMembers ∈ compiler.nodeValues.values := by
    rw [Tables.values_eq]
    exact List.mem_map.mpr ⟨_, ExtTreeMap.mem_toList_iff_getElem?_eq_some.mpr entry, rfl⟩
  intro read
  rw [identified.reads faithful integral, readFormat_ok advancedFormat_le shape.format, ok_bind,
    checkManifestFormat_ok (by decide) advancedFormat_le, ok_bind, require_ok (by simp), ok_bind,
    readJobName_ok shape.job, ok_bind] at read
  obtain ⟨counts, graphRead, _⟩ := bind_eq_ok read
  rw [readGraph, if_neg (by decide), if_pos rfl] at graphRead
  obtain ⟨_, _, toRestart⟩ := bind_eq_ok graphRead
  obtain ⟨_, _, toCounts⟩ := bind_eq_ok toRestart
  obtain ⟨found, counting, _⟩ := bind_eq_ok toCounts
  unfold advancedGraphCounts at counting
  rw [shape.nodes, arrayLen_array shape.transitions] at counting
  exact countNodes_customLeaf among projects _ found counting

private theorem basePlan_of_plain (plain : graph.requiresAdvancedFormat = false)
    (compiled : graph.compile serde jobName revision = .ok plan) :
    ∃ entry localScale outgoing,
      BasePlan serde graph jobName revision plan entry localScale outgoing := by
  rw [FlowGraph.compile, FlowGraph.compileUnder, plain, if_neg Bool.false_ne_true] at compiled
  obtain ⟨entry, nodes, localScale, outgoing, definition, stages, rfl⟩ :=
    compileBase_stages compiled
  exact ⟨entry, localScale, outgoing, plain, stages⟩

/-- Base plans keep every declared transition. -/
private theorem connect_total {nodes : NodeMap (FlowNode FlowGraph)}
    {transitions : List FlowTransition}
    {held outgoing : Edges} (connected : transitions.foldlM (connect nodes) held = .ok outgoing) :
    Tables.total List.length outgoing = Tables.total List.length held + transitions.length := by
  induction transitions generalizing held with
  | nil =>
    cases connected
    rfl
  | cons transition transitions ih =>
    rw [List.foldlM_cons] at connected
    obtain ⟨middle, here, rest⟩ := bind_eq_ok connected
    obtain ⟨_, _, pushed⟩ := bind_eq_ok here
    rw [ih rest, pushTransition_total pushed, List.length_cons]
    omega

theorem BasePlan.read_ok (base : BasePlan serde graph jobName revision plan entry localScale outgoing)
    (faithful : serde.Faithful) :
    DefinitionManifest.read serde plan.definition.canonicalManifest =
      .ok (manifestView graph jobName plan) := by
  have every := base.every
  have identified := base.identified
  have integral := Json.containsFloat_of_every _ every
  have lacks : ∀ members, Tame True members → member? "restart_policy" members = none := by
    intro members tame
    cases found : member? "restart_policy" members with
    | none => rfl
    | some policy => exact absurd trivial (tame.1 policy found).1
  have restartless := Json.containsObjectKey_of_every lacks _ every
  let sorted := outgoing.map fun _ edges => sortTransitions edges
  let format := if localScale then manifestFormatLocalScale else manifestFormatFlow
  have formats : format = manifestFormatFlow ∨ format = manifestFormatLocalScale := by
    simp only [format]
    cases localScale
    · exact .inl rfl
    · exact .inr rfl
  have small : format ≤ 4 := by
    rcases formats with same | same <;> rw [same] <;> decide
  have positive : 0 < format := by
    rcases formats with same | same <;> rw [same] <;> decide
  have nodes : plan.nodes.values.length = graph.nodes.length := by
    have total := @insertFresh_total _ (fun _ => 1) _ _ _ _ base.stages.collected
    rw [Tables.total_one, Tables.total_empty, List.map_map] at total
    rw [Tables.values_eq, List.length_map, ExtTreeMap.length_toList, total]
    simp [Function.comp_def]
  have transitions : Tables.total List.length sorted = graph.transitions.length := by
    have total := connect_total base.stages.connected
    rw [Tables.total_empty, Nat.zero_add] at total
    rw [← total]
    apply Tables.total_congr
    intro key
    simp only [sorted, ExtTreeMap.getElem?_map]
    cases outgoing[key]? with
    | none => exact .none
    | some edges => exact .some (sortTransitions_perm edges).length_eq
  let members : Members :=
    [("entry", text entry), ("format", number format), ("job", text jobName),
     ("nodes", .array (plan.nodes.values.map FlowNode.manifestValue)),
     ("transitions", transitionsManifest sorted)]
  have shown : baseDocument jobName entry plan.nodes outgoing localScale = .object members := rfl
  rw [shown] at identified integral restartless every
  have found : member? "format" members = some (number format) := by simp [members]
  have job : member? "job" members = some (text jobName) := by simp [members]
  have listed : member? "nodes" members =
      some (.array (plan.nodes.values.map FlowNode.manifestValue)) := by simp [members]
  have edges : member? "transitions" members = some (transitionsManifest sorted) := by
    simp [members]
  have onceEach : (Json.array (plan.nodes.values.map FlowNode.manifestValue)).containsObjectKey
      "repeat" = false := by
    apply @Json.containsObjectKey_of_every (Tame True) _ fun _ tame => tame.2 trivial
    rw [Json.every_object] at every
    simp only [members, Json.everyMember_cons] at every
    exact every.2.2.2.2.1
  have graphRead : readGraph format (.object members) members =
      .ok (some (graph.nodes.length, graph.transitions.length)) := by
    unfold readGraph
    rw [if_pos formats, listed, readable_some, ok_bind, onceEach]
    rw [← listed, arrayLen_array listed, arrayLen_array edges, length_transitions, List.length_map,
      nodes, transitions, Bool.not_false, require_true, ok_bind, ok_bind, ok_bind,
      ensureGraphBounds_ok base.stages.fewNodes base.stages.fewTransitions, ok_bind]
    rfl
  have plain : (decide (format = manifestFormatAdvancedFlow) ||
      !(hasMember "parameter_incrementer" members ||
        (Json.object members).containsObjectKey "restart_policy")) = true := by
    rw [restartless]
    simp [hasMember, members]
  have counted : graph.counted = (graph.nodes.length, graph.transitions.length) := by
    rw [FlowGraph.counted, base.plain, if_neg Bool.false_ne_true]
  rw [identified.reads faithful integral, readFormat_ok small found, ok_bind,
    checkManifestFormat_ok positive small, ok_bind, require_ok plain, ok_bind, readJobName_ok job,
    ok_bind, graphRead, ok_bind, manifestView, counted,
    identified.format_eq faithful integral small found]
  rfl

end Reading

section Main

/-- The reader accepts what the compiler emits, with its format, job name, and digest and
with the counts that the compiler has bounded, exactly when no custom leaf is declared at
any depth. -/
theorem reader_accepts_compiled_iff (serde : Serde) (faithful : serde.Faithful) (graph : FlowGraph)
    (jobName : JobName) (revision : DefinitionRevision)
    (plan : CompiledExecutionPlan DefinitionIdentity)
    (compiled : graph.compile serde jobName revision = .ok plan) :
    (DefinitionManifest.read serde plan.definition.canonicalManifest =
        .ok ⟨plan.definition.manifestFormat, plan.definition.manifestDigest, some jobName,
          some graph.counted.1, some graph.counted.2⟩ ∧
      graph.counted.1 ≤ maxNodes ∧ graph.counted.2 ≤ maxTransitions) ↔
      ¬ ∃ leaf, Declares graph (.customLeaf leaf) := by
  cases format : graph.requiresAdvancedFormat with
  | true =>
    rcases compile_cases compiled with ⟨compiler, scope, advanced⟩ | ⟨_, _, _, base⟩
    · have within := advanced.rooted.1.within
      have counted : graph.counted = (compiler.materialized, compiler.declaredTransitions) := by
        have ran : (compileScope maxFlowCompositionDepth graph).run .default =
            .ok (scope, compiler) := advanced.compiled
        rw [FlowGraph.counted, if_pos format, ran]
        rfl
      constructor
      · rintro ⟨read, _, _⟩ ⟨leaf, declared⟩
        exact advanced.read_customLeaf faithful declared _ read
      · intro known
        refine ⟨advanced.read_ok format faithful known, ?_⟩
        rw [counted]
        exact ⟨within.nodes, within.transitions⟩
    · have plain := base.plain
      rw [format] at plain
      cases plain
  | false =>
    obtain ⟨entry, localScale, outgoing, base⟩ := basePlan_of_plain format compiled
    have counted : graph.counted = (graph.nodes.length, graph.transitions.length) := by
      rw [FlowGraph.counted, format, if_neg Bool.false_ne_true]
    have leafless : ¬ ∃ leaf, Declares graph (.customLeaf leaf) := by
      rintro ⟨leaf, declared⟩
      have held := (base.declared _ _).mpr ⟨declared, rfl⟩
      have member : FlowNode.customLeaf leaf ∈ plan.nodes.values := by
        rw [Tables.values_eq]
        exact List.mem_map.mpr ⟨_, ExtTreeMap.mem_toList_iff_getElem?_eq_some.mpr held, rfl⟩
      have simple := (base.plainNode member).2.2
      cases simple
    refine iff_of_true ⟨base.read_ok faithful, ?_⟩ leafless
    rw [counted]
    exact ⟨base.stages.fewNodes, base.stages.fewTransitions⟩

/-- The serializer and the digest on one manifest. -/
def oneSerde (document : Json) (digest : Digest) : Serde where
  toVec other := if other = document then some document.toBytes else none
  fromSlice bytes := if bytes = document.toBytes then some document else none
  sha256 bytes := if bytes = document.toBytes then digest else 0

theorem oneSerde_faithful (document : Json) (digest : Digest) :
    (oneSerde document digest).Faithful := by
  intro other parsed bytes _ encoded read
  simp only [oneSerde, Option.ite_none_right_eq_some, Option.some.injEq] at encoded read
  rw [← read.2, encoded.1]

def pairReader : Serde :=
  oneSerde pairManifest 0x3f161f2cc8153a637cd9934149eee4b4e3a04aa4d9947d98b26aa196d7587564

private theorem pairFlow_leafless : ¬ ∃ leaf, Declares (pairFlow false) (.customLeaf leaf) := by
  rintro ⟨leaf, declared⟩
  cases declared with
  | own member => simp [pairFlow] at member
  | nested member _ => simp [pairFlow] at member
  | branch member among flow inner =>
    simp only [pairFlow, List.mem_cons, reduceCtorEq, List.not_mem_nil, false_or, or_false,
      FlowNode.split.injEq] at member
    subst member
    simp only [List.mem_cons, List.not_mem_nil, or_false] at among
    rcases among with rfl | rfl
    · cases flow
    · cases flow
      cases inner with
      | own member => simp at member
      | nested member _ => simp at member
      | branch member _ _ _ => simp at member

theorem reader_accepts_pairFlow :
    ∃ plan, (pairFlow false).compile pairReader fanJob ⟨"r1", by decide⟩ = .ok plan ∧
      DefinitionManifest.read pairReader plan.definition.canonicalManifest =
        .ok ⟨plan.definition.manifestFormat, plan.definition.manifestDigest, some fanJob,
          some (pairFlow false).counted.1, some (pairFlow false).counted.2⟩ := by
  obtain ⟨plan, compiled⟩ := plan_of_isOk
    (show ((pairFlow false).compile pairReader fanJob ⟨"r1", by decide⟩).isOk = true by
      decide +kernel)
  exact ⟨plan, compiled, ((reader_accepts_compiled_iff pairReader (oneSerde_faithful _ _) _ fanJob _
    plan compiled).mpr pairFlow_leafless).1⟩

/-- A flow of one custom leaf. -/
def leafFlow : FlowGraph :=
  let call : NodeId := ⟨"call", Eq.refl true⟩
  { entry := some call
    nodes := [.customLeaf
      { id := call
        stepName := call
        kind := ⟨"http", Eq.refl true⟩
        handlerRevision := ⟨"v1", Eq.refl true⟩
        stateSchemaId := ⟨"call", Eq.refl true⟩
        stateSchemaVersion := 1
        start := ⟨StartLimit.unrestricted, false, .restartable⟩
        fault := none
        listeners := [] }]
    transitions := [⟨call, ⟨"*", Eq.refl true⟩, .terminal .complete⟩]
    nestedFlows := []
    scopedComponents := []
    parameterIncrementer := none
    jobRestartPolicy := .restartable }

def leafManifest : Json :=
  match (compileScope maxFlowCompositionDepth leafFlow).run .default with
  | .ok (scope, compiler) => compiler.manifest fanJob scope none
  | .error _ => .null

def leafReader : Serde :=
  oneSerde leafManifest 0x7ca6bc04cb0361f288f3d5260ad6d803cc302808b54856a5688a61cab31f855f

/-- The compiler takes a custom leaf, the reader does not. -/
theorem reader_rejects_leafFlow : ¬ ∀ (serde : Serde) (_ : serde.Faithful) (graph : FlowGraph)
    (jobName : JobName) (revision : DefinitionRevision)
    (plan : CompiledExecutionPlan DefinitionIdentity),
    graph.compile serde jobName revision = .ok plan →
    ∃ manifest nodes transitions,
      DefinitionManifest.read serde plan.definition.canonicalManifest = .ok manifest ∧
      manifest.format = plan.definition.manifestFormat ∧ manifest.jobName = some jobName ∧
      manifest.digest = plan.definition.manifestDigest ∧ manifest.nodeCount = some nodes ∧
      manifest.transitionCount = some transitions ∧ nodes ≤ maxNodes ∧
      transitions ≤ maxTransitions := by
  intro accepts
  let compiled := leafFlow.compile leafReader fanJob ⟨"r1", by decide⟩
  obtain ⟨plan, ok⟩ := plan_of_isOk (show compiled.isOk = true by decide +kernel)
  have refused : compiled.toOption.map (fun plan =>
      (DefinitionManifest.read leafReader plan.definition.canonicalManifest).isOk) =
      some false := by
    decide +kernel
  obtain ⟨manifest, _, _, read, _⟩ :=
    accepts leafReader (oneSerde_faithful _ _) leafFlow fanJob _ plan ok
  rw [ok] at refused
  simp only [Except.toOption, Option.map_some, read, Option.some.injEq] at refused
  cases refused

end Main

end OxideBatch.Plan
