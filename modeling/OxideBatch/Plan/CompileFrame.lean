import OxideBatch.Plan.Interpret
import OxideBatch.Lib.Program

/-! What each step of the compiler does to the plan it builds: which nodes and
transitions it installs, which it rewrites, and that it leaves the rest alone. -/

namespace OxideBatch.Plan

open OxideBatch.Core Program
open Std (ExtTreeMap ExtTreeSet)

theorem getElem?_insert_self (held : NodeMap Value) (id : NodeId) (value : Value) :
    (held.insert id value)[id]? = some value := by
  simp

theorem getElem?_insert_ne {held : NodeMap Value} {id other : NodeId} (different : id ≠ other) :
    (held.insert id value)[other]? = held[other]? := by
  rw [ExtTreeMap.getElem?_insert]
  simp [different]

section Fresh

/-- The result of inserting fresh entries. -/
structure Inserted (taken : NodeId → Bool) (held : NodeMap Value) (entries : List (NodeId × Value))
    (result : NodeMap Value) : Prop where
  others : ∀ id, id ∉ entries.map (·.1) → result[id]? = held[id]?
  fresh : ∀ entry ∈ entries, held[entry.1]? = none
  free : ∀ entry ∈ entries, taken entry.1 = false
  here : ∀ entry ∈ entries, result[entry.1]? = some entry.2

theorem insertFresh_inserted {held : NodeMap Value} {entries : List (NodeId × Value)}
    (inserted : insertFresh taken held entries = .ok result) :
    Inserted taken held entries result := by
  induction entries generalizing held with
  | nil =>
    cases inserted
    exact ⟨fun _ _ => rfl, by simp, by simp, by simp⟩
  | cons entry entries ih =>
    unfold insertFresh at inserted
    rw [List.foldlM_cons] at inserted
    split at inserted
    · cases inserted
    · rename_i unused
      simp only [Bool.or_eq_true, not_or, Bool.not_eq_true] at unused
      have rest := ih inserted
      have absent : held[entry.1]? = none :=
        ExtTreeMap.getElem?_eq_none_of_contains_eq_false unused.2
      have away : entry.1 ∉ entries.map (·.1) := by
        intro member
        obtain ⟨later, found, same⟩ := List.mem_map.mp member
        have missing := rest.fresh later found
        rw [same] at missing
        simp at missing
      refine ⟨?_, ?_, ?_, ?_⟩
      · intro id outside
        simp only [List.map_cons, List.mem_cons, not_or] at outside
        rw [rest.others id outside.2]
        exact getElem?_insert_ne (Ne.symm outside.1)
      · intro other member
        rcases List.mem_cons.mp member with rfl | later
        · exact absent
        · have missing := rest.fresh other later
          by_cases same : entry.1 = other.1
          · rw [← same]
            exact absent
          · rwa [getElem?_insert_ne same] at missing
      · intro other member
        rcases List.mem_cons.mp member with rfl | later
        · exact unused.1
        · exact rest.free other later
      · intro other member
        rcases List.mem_cons.mp member with rfl | later
        · rw [rest.others _ away]
          exact getElem?_insert_self _ _ _
        · exact rest.here other later

/-- Entries collected under fresh keys are found by their key. -/
private theorem insertFresh_find {key : α → NodeId} {value : α → Value} {entries : List α}
    (inserted : insertFresh taken ∅ (entries.map fun entry => (key entry, value entry)) = .ok result)
    (id : NodeId) : result[id]? = (entries.find? (key · = id)).map value := by
  have all := insertFresh_inserted inserted
  cases found : entries.find? (key · = id) with
  | none =>
    have missing := List.find?_eq_none.mp found
    refine (all.others id ?_).trans (by simp)
    intro member
    simp only [List.map_map, List.mem_map, Function.comp_apply] at member
    obtain ⟨entry, present, same⟩ := member
    exact missing entry present (by simpa using same)
  | some entry =>
    have same : key entry = id := by simpa using List.find?_some found
    have here := all.here _ (List.mem_map_of_mem (List.mem_of_find?_eq_some found))
    rw [← same]
    exact here

/-- A whole map inserted under fresh keys overlays the held one. -/
private theorem insertFresh_toList {held : NodeMap Value} {entries : NodeMap Source}
    (value : Source → Value) (inserted : insertFresh taken held
      (entries.toList.map fun entry => (entry.1, value entry.2)) = .ok result) (id : NodeId) :
    (∀ source, entries[id]? = some source → held[id]? = none ∧ result[id]? = some (value source)) ∧
      (entries[id]? = none → result[id]? = held[id]?) := by
  have all := insertFresh_inserted inserted
  refine ⟨?_, ?_⟩
  · intro source found
    have member := List.mem_map_of_mem (f := fun entry : NodeId × Source => (entry.1, value entry.2))
      (ExtTreeMap.mem_toList_iff_getElem?_eq_some.mpr found)
    exact ⟨all.fresh _ member, all.here _ member⟩
  · intro absent
    refine all.others id fun member => ?_
    simp only [List.map_map, List.mem_map, Function.comp_apply] at member
    obtain ⟨entry, present, same⟩ := member
    rw [← same, ExtTreeMap.mem_toList_iff_getElem?_eq_some.mp present] at absent
    cases absent

end Fresh

section Prepare

/-- The step touched neither nodes nor transitions. -/
def SameGraph (before after : AdvancedCompiler) : Prop :=
  after.nodes = before.nodes ∧ after.transitions = before.transitions

/-- The step touched no part of the plan; it may have reserved identifiers. -/
structure Quiet (before after : AdvancedCompiler) : Prop where
  nodes : after.nodes = before.nodes
  transitions : after.transitions = before.transitions
  branches : after.splitBranchScopes = before.splitBranchScopes
  records : after.nestedRecords = before.nestedRecords
  ids : ∀ id ∈ before.allIds, id ∈ after.allIds

theorem Quiet.refl (compiler : AdvancedCompiler) : Quiet compiler compiler :=
  ⟨rfl, rfl, rfl, rfl, fun _ member => member⟩

theorem Quiet.trans {first second third : AdvancedCompiler} (left : Quiet first second)
    (right : Quiet second third) : Quiet first third :=
  ⟨right.nodes.trans left.nodes, right.transitions.trans left.transitions,
    right.branches.trans left.branches, right.records.trans left.records,
    fun id member => right.ids id (left.ids id member)⟩

theorem Quiet.same {before after : AdvancedCompiler} (quiet : Quiet before after) :
    SameGraph before after :=
  ⟨quiet.nodes, quiet.transitions⟩

theorem quiet_narrowRestartPolicy (policy : RestartPolicy) :
    Keeps Quiet (narrowRestartPolicy policy) := by
  unfold narrowRestartPolicy
  split
  · exact Keeps.modify fun _ => ⟨rfl, rfl, rfl, rfl, fun _ member => member⟩
  · exact Keeps.pure Quiet.refl _

theorem quiet_installScopedComponent (component : ScopedComponentDefinition) :
    Keeps Quiet (installScopedComponent component) := by
  refine Keeps.bind Quiet.trans (Keeps.get Quiet.refl) fun compiler => ?_
  dsimp only
  split
  · exact Keeps.throw _
  · split
    · exact Keeps.throw _
    · exact Keeps.modify fun _ => ⟨rfl, rfl, rfl, rfl, fun _ member => member⟩

private theorem quiet_registerStepRepeat (step : StepNode) : Keeps Quiet
    (registerStepRepeat step) := by
  refine Keeps.forM Quiet.refl Quiet.trans (fun id => ?_) _
  refine Keeps.bind Quiet.trans (Keeps.get Quiet.refl) fun compiler => ?_
  split
  · exact Keeps.throw _
  · exact Keeps.modify fun _ => ⟨rfl, rfl, rfl, rfl, fun _ member => member⟩

private theorem quiet_registerNodeRepeats (node : FlowNode FlowGraph) :
    Keeps Quiet (registerNodeRepeats node) := by
  cases node with
  | step node => exact quiet_registerStepRepeat node
  | partitionedStep node => exact quiet_registerStepRepeat node.worker
  | split node => exact Keeps.forM Quiet.refl Quiet.trans quiet_registerStepRepeat _
  | decision _ => exact Keeps.pure Quiet.refl _
  | nestedJob _ => exact Keeps.pure Quiet.refl _
  | customLeaf _ => exact Keeps.pure Quiet.refl _
  | join _ => exact Keeps.pure Quiet.refl _

theorem quiet_checkMaterializedNodes : Keeps Quiet checkMaterializedNodes := by
  refine Keeps.bind Quiet.trans (Keeps.get Quiet.refl) fun compiler => ?_
  split
  · exact Keeps.throw _
  · exact Keeps.pure Quiet.refl _

theorem quiet_reserveId (id : NodeId) : Keeps Quiet (reserveId id) := by
  refine Keeps.bind Quiet.trans (Keeps.get Quiet.refl) fun compiler => ?_
  split
  · exact Keeps.throw _
  · refine Keeps.bind Quiet.trans (Keeps.modify fun _ => ⟨rfl, rfl, rfl, rfl, ?_⟩) fun _ => ?_
    · exact fun other member => by simp [member]
    · exact quiet_checkMaterializedNodes

theorem reserveId_fresh {id : NodeId} (yields : reserveId id before = .ok ((), after)) :
    id ∉ before.allIds ∧ id ∈ after.allIds := by
  obtain ⟨_, _, got, rest⟩ := yields_bind yields
  cases got
  split at rest
  · cases rest
  · rename_i unused
    obtain ⟨_, _, changed, checking⟩ := yields_bind rest
    cases changed
    refine ⟨by simpa using unused, ?_⟩
    apply (quiet_checkMaterializedNodes _ _ _ checking).ids
    simp

/-- Identifiers reserved one after the other were all unused. -/
private theorem reserveId_all {ids : List NodeId}
    (yields : ids.forM reserveId before = .ok ((), after)) :
    ∀ id ∈ ids, id ∉ before.allIds ∧ id ∈ after.allIds := by
  induction ids generalizing before with
  | nil =>
    intro id member
    cases member
  | cons first ids ih =>
    obtain ⟨_, middle, one, rest⟩ := yields_bind yields
    obtain ⟨unused, taken⟩ := reserveId_fresh one
    intro id member
    rcases List.mem_cons.mp member with rfl | later
    · refine ⟨unused, ?_⟩
      exact (Keeps.forM Quiet.refl Quiet.trans quiet_reserveId _ _ _ _ rest).ids _ taken
    · obtain ⟨free, taken'⟩ := ih rest id later
      exact ⟨fun old => free ((quiet_reserveId _ _ _ _ one).ids id old), taken'⟩

theorem quiet_countTransitions (declared : Nat) : Keeps Quiet (countTransitions declared) := by
  refine Keeps.bind Quiet.trans (Keeps.get Quiet.refl) fun compiler => ?_
  split
  · exact Keeps.throw _
  · refine Keeps.bind Quiet.trans
      (Keeps.modify fun _ => ⟨rfl, rfl, rfl, rfl, fun _ member => member⟩) fun _ => ?_
    split
    · exact Keeps.throw _
    · exact Keeps.pure Quiet.refl _

/-- What a prepared scope holds of its graph. -/
structure Prepared (graph : FlowGraph) (prepared : PreparedScope) : Prop where
  entry : graph.entry = some prepared.declaredEntry
  nodes : ∀ id, prepared.localNodes[id]? = graph.node? id
  nested : ∀ id, prepared.nested[id]? = graph.nested? id
  apart : ∀ id, prepared.nested.contains id = true → prepared.localNodes.contains id = false
  declared : prepared.localNodes.contains prepared.declaredEntry = true ∨
    prepared.nested.contains prepared.declaredEntry = true
  transitions : prepared.transitions = graph.transitions

theorem prepareScope_prepared (yields : prepareScope graph before = .ok (prepared, after)) :
    Prepared graph prepared ∧ Quiet before after ∧
      ∀ id ∈ prepared.localNodes.keys ++ prepared.nested.keys,
        id ∉ before.allIds ∧ id ∈ after.allIds := by
  obtain ⟨_, first, narrowed, rest⟩ := yields_bind yields
  obtain ⟨_, second, installed, rest⟩ := yields_bind rest
  obtain ⟨_, third, counted, scope⟩ := yields_bind rest
  have early := (quiet_narrowRestartPolicy _ _ _ _ narrowed).trans
    ((Keeps.forM Quiet.refl Quiet.trans quiet_installScopedComponent _ _ _ _ installed).trans
      (quiet_countTransitions _ _ _ _ counted))
  cases entry : graph.entry with
  | none =>
    rw [entry] at scope
    cases scope
  | some declaredEntry =>
    rw [entry] at scope
    obtain ⟨localNodes, fourth, collecting, registering⟩ := yields_bind scope
    obtain ⟨collected, rfl⟩ := yields_lift collecting
    obtain ⟨_, fifth, registered, gathering⟩ := yields_bind registering
    obtain ⟨nested, sixth, lifted, reserving⟩ := yields_bind gathering
    obtain ⟨gathered, rfl⟩ := yields_lift lifted
    split at reserving
    · cases reserving
    · rename_i known
      obtain ⟨_, seventh, reserved, ending⟩ := yields_bind reserving
      obtain ⟨rfl, rfl⟩ := yields_pure ending
      have owners : ∀ id, nested[id]? = graph.nested? id := insertFresh_find gathered
      have quiet := early.trans
        (Keeps.forM Quiet.refl Quiet.trans quiet_registerNodeRepeats _ _ _ _ registered)
      refine ⟨⟨entry, ?_, owners, ?_, ?_, rfl⟩, quiet.trans
        (Keeps.forM Quiet.refl Quiet.trans quiet_reserveId _ _ _ _ reserved), ?_⟩
      · intro id
        rw [insertFresh_find collected id, Option.map_id']
        rfl
      · intro id owner
        obtain ⟨inner, found⟩ := Option.isSome_iff_exists.mp
          ((ExtTreeMap.contains_eq_isSome_getElem? ..).symm.trans owner)
        rw [owners] at found
        obtain ⟨flow, present, _⟩ := Option.map_eq_some_iff.mp found
        have free := (insertFresh_inserted gathered).free _
          (List.mem_map_of_mem (List.mem_of_find?_eq_some present))
        have same : flow.id = id := by simpa using List.find?_some present
        rw [← same]
        exact free
      · by_cases here : localNodes.contains declaredEntry = true
        · exact .inl here
        · exact .inr (by simpa [here] using known)
      · intro id member
        obtain ⟨unused, taken⟩ := reserveId_all reserved id member
        exact ⟨fun old => unused (quiet.ids id old), taken⟩

end Prepare

section Partition

/-- The edges of a source; a source without an entry has none. -/
def edgesOf (edges : Edges) (source : NodeId) : List FlowTransition := edges[source]?.getD []

/-- What the partition holds of the transitions behind it. -/
structure Partitioned (localNodes : NodeMap (FlowNode FlowGraph))
    (nestedScopes : NodeMap CompiledFlowScope) (transitions : List FlowTransition)
    (partitions : Edges × Edges) : Prop where
  outgoing : ∀ id, nestedScopes.contains id = false →
    edgesOf partitions.1 id = transitions.filter (·.source = id)
  exits : ∀ id, nestedScopes.contains id = true →
    edgesOf partitions.2 id = transitions.filter (·.source = id)
  owned : ∀ id, partitions.1.contains id = true → localNodes.contains id = true
  valid : ∀ transition ∈ transitions, validateTransition transition localNodes nestedScopes = .ok ()

private theorem pushTransition_edges (pushed : pushTransition edges transition = .ok edges')
    (id : NodeId) :
    edgesOf edges' id =
      if transition.source = id then edgesOf edges id ++ [transition] else edgesOf edges id := by
  unfold pushTransition at pushed
  dsimp only at pushed
  split at pushed
  · cases pushed
  · cases pushed
    unfold edgesOf
    rw [ExtTreeMap.getElem?_insert]
    by_cases same : transition.source = id
    · simp [same]
    · simp [same]

theorem pushTransition_contains {id : NodeId} (pushed : pushTransition edges transition = .ok edges')
    (held : edges'.contains id = true) : transition.source = id ∨ edges.contains id = true := by
  unfold pushTransition at pushed
  dsimp only at pushed
  split at pushed
  · cases pushed
  · cases pushed
    simpa using held

private theorem either_of_not_neither {left right : Bool} (declared : ¬(!(left || right)) = true) :
    left = true ∨ right = true := by
  cases left <;> simp_all

private theorem validateTransition_source
    (valid : validateTransition transition localNodes nestedScopes = .ok ()) :
    localNodes.contains transition.source = true ∨ nestedScopes.contains transition.source = true := by
  unfold validateTransition at valid
  dsimp only at valid
  split at valid
  · cases valid
  · rename_i declared
    exact either_of_not_neither declared

theorem validateTransition_target {id : NodeId}
    (valid : validateTransition transition localNodes nestedScopes = .ok ())
    (target : transition.target = .node id) :
    localNodes.contains id = true ∨ nestedScopes.contains id = true := by
  unfold validateTransition at valid
  dsimp only at valid
  split at valid
  · cases valid
  · rw [target] at valid
    dsimp only at valid
    split at valid
    · cases valid
    · rename_i declared
      exact either_of_not_neither declared

private theorem filter_source_snoc (transitions : List FlowTransition) (transition : FlowTransition)
    (id : NodeId) : (transitions ++ [transition]).filter (·.source = id) =
      if transition.source = id then transitions.filter (·.source = id) ++ [transition]
      else transitions.filter (·.source = id) := by
  rw [List.filter_append]
  by_cases same : transition.source = id
  · simp [same]
  · simp [same]

theorem Partitioned.snoc (partitioned : Partitioned localNodes nestedScopes transitions partitions)
    (added : partitionTransition localNodes nestedScopes partitions transition = .ok partitions') :
    Partitioned localNodes nestedScopes (transitions ++ [transition]) partitions' := by
  obtain ⟨_, valid, added⟩ := bind_eq_ok added
  have allValid : ∀ other ∈ transitions ++ [transition],
      validateTransition other localNodes nestedScopes = .ok () := by
    intro other member
    rcases List.mem_append.mp member with old | new
    · exact partitioned.valid other old
    · rw [List.mem_singleton.mp new]
      exact valid
  by_cases owner : nestedScopes.contains transition.source = true
  · rw [if_pos owner] at added
    obtain ⟨exits, pushed, same⟩ := bind_eq_ok added
    cases same
    refine ⟨?_, ?_, partitioned.owned, allValid⟩
    · intro id executable
      have away : transition.source ≠ id := by
        rintro rfl
        simp [owner] at executable
      rw [filter_source_snoc, if_neg away]
      exact partitioned.outgoing id executable
    · intro id owned
      rw [filter_source_snoc, pushTransition_edges pushed, partitioned.exits id owned]
  · rw [if_neg owner] at added
    obtain ⟨outgoing, pushed, same⟩ := bind_eq_ok added
    cases same
    refine ⟨?_, ?_, ?_, allValid⟩
    · intro id executable
      rw [filter_source_snoc, pushTransition_edges pushed, partitioned.outgoing id executable]
    · intro id owned
      have away : transition.source ≠ id := by
        rintro rfl
        exact owner owned
      rw [filter_source_snoc, if_neg away]
      exact partitioned.exits id owned
    · intro id held
      rcases pushTransition_contains pushed held with same | old
      · subst same
        rcases validateTransition_source valid with declared | nested
        · exact declared
        · exact False.elim (owner nested)
      · exact partitioned.owned id old

theorem partitionTransitions_partitioned
    (partition : partitionTransitions transitions localNodes nestedScopes = .ok partitions) :
    Partitioned localNodes nestedScopes transitions partitions := by
  have general : ∀ (rest done : List FlowTransition) (held : Edges × Edges),
      Partitioned localNodes nestedScopes done held →
      rest.foldlM (partitionTransition localNodes nestedScopes) held = .ok partitions →
      Partitioned localNodes nestedScopes (done ++ rest) partitions := by
    intro rest
    induction rest with
    | nil =>
      intro done held partitioned ended
      cases ended
      rw [List.append_nil]
      exact partitioned
    | cons transition rest ih =>
      intro done held partitioned ended
      rw [List.foldlM_cons] at ended
      obtain ⟨middle, added, later⟩ := bind_eq_ok ended
      have whole := ih _ _ (partitioned.snoc added) later
      rw [List.append_assoc] at whole
      exact whole
  refine general transitions [] (∅, ∅) ⟨?_, ?_, ?_, ?_⟩ partition
  · intro id _
    simp [edgesOf]
  · intro id _
    simp [edgesOf]
  · intro id held
    simp at held
  · intro transition member
    cases member

end Partition

section Boundaries

/-- A fold that changes one identifier at a time relates every identifier's old
value to its new one. -/
theorem foldlM_pointwise {update : NodeMap Value → NodeId → Except PlanError (NodeMap Value)}
    (change : NodeId → Option Value → Option Value → Prop)
    (each : ∀ held id held', update held id = .ok held' →
      (∀ other, other ≠ id → held'[other]? = held[other]?) ∧ change id held[id]? held'[id]?)
    {ids : List NodeId} (distinct : ids.Nodup) (ended : ids.foldlM update held = .ok result) :
    (∀ id, id ∉ ids → result[id]? = held[id]?) ∧ ∀ id ∈ ids, change id held[id]? result[id]? := by
  induction ids generalizing held with
  | nil =>
    cases ended
    exact ⟨fun _ _ => rfl, by simp⟩
  | cons id ids ih =>
    rw [List.foldlM_cons] at ended
    obtain ⟨middle, updated, later⟩ := bind_eq_ok ended
    obtain ⟨kept, changed⟩ := each _ _ _ updated
    obtain ⟨others, inside⟩ := ih distinct.of_cons later
    refine ⟨?_, ?_⟩
    · intro other outside
      rw [List.mem_cons, not_or] at outside
      rw [others other outside.2, kept other outside.1]
    · intro other member
      rcases List.mem_cons.mp member with rfl | old
      · rw [others other (List.nodup_cons.mp distinct).1]
        exact changed
      · have away : other ≠ id := by
          rintro rfl
          exact (List.nodup_cons.mp distinct).1 old
        rw [← kept other away]
        exact inside other old

/-- The exits of an owner, sorted and free of ambiguity. -/
def SortedExits (_owner : NodeId) (declared sorted : Option (List FlowTransition)) : Prop :=
  sorted = some (sortTransitions (declared.getD [])) ∧ (declared.getD []).Pairwise Apart

theorem validateNestedExits_sorted
    (validated : validateNestedExits nestedScopes declared = .ok sorted) (owner : NodeId)
    (nested : nestedScopes.contains owner = true) :
    SortedExits owner declared[owner]? sorted[owner]? := by
  refine (foldlM_pointwise SortedExits ?_ ?_ validated).2 owner ?_
  · intro held id held' updated
    split at updated
    · cases updated
    · rename_i edge edges found
      obtain ⟨_, unambiguous, same⟩ := bind_eq_ok updated
      cases same
      refine ⟨fun other away => getElem?_insert_ne (Ne.symm away), ?_⟩
      refine ⟨?_, ?_⟩
      · rw [getElem?_insert_self, found]
      · rw [found]
        exact apart_of_checkUnambiguous unambiguous
  · exact ExtTreeMap.nodup_keys
  · simpa using nested

/-- The edges of a nested member with its terminal edges rewritten. -/
def Rewritten (owner : NodeId) (exits : List FlowTransition)
    (old new : Option (List FlowTransition)) : Prop :=
  match old with
  | none => new = none
  | some edges => ∃ rewritten, edges.mapM (rewriteEdge owner exits) = .ok rewritten ∧
      new = some rewritten

theorem rewriteNestedTerminals_rewritten
    (rewrote : rewriteNestedTerminals owner scope exits transitions = .ok transitions') :
    (∀ id, id ∉ scope.members → transitions'[id]? = transitions[id]?) ∧
      ∀ id ∈ scope.members, Rewritten owner exits transitions[id]? transitions'[id]? := by
  have distinct : scope.members.toList.Nodup :=
    ExtTreeSet.distinct_toList.imp Std.ReflCmp.ne_of_cmp_ne_eq
  have pointwise := foldlM_pointwise (fun _ => Rewritten owner exits) ?_ distinct rewrote
  · refine ⟨fun id outside => pointwise.1 id ?_, fun id inside => pointwise.2 id ?_⟩
    · simpa using outside
    · simpa using inside
  · intro held id held' updated
    split at updated
    · rename_i absent
      cases updated
      exact ⟨fun _ _ => rfl, by rw [absent]; rfl⟩
    · rename_i edges found
      obtain ⟨rewritten, mapped, same⟩ := bind_eq_ok updated
      cases same
      refine ⟨fun other away => getElem?_insert_ne (Ne.symm away), ?_⟩
      rw [found, getElem?_insert_self]
      exact ⟨rewritten, mapped, rfl⟩

/-- What normalizing the boundaries of nested scopes does to the transitions. -/
structure Normalized (nestedScopes : NodeMap CompiledFlowScope) (nestedExits : Edges)
    (entries : List (NodeId × CompiledFlowScope)) (before after : AdvancedCompiler) : Prop where
  nodes : after.nodes = before.nodes
  branches : after.splitBranchScopes = before.splitBranchScopes
  ids : after.allIds = before.allIds
  records : ∀ (owner : NodeId) record, after.nestedRecords[owner]? = some record →
    before.nestedRecords[owner]? = some record ∨ ∃ entry ∈ entries, record.scope = entry.2
  others : ∀ id, (∀ entry ∈ entries, id ∉ entry.2.members) →
    after.transitions[id]? = before.transitions[id]?
  members : ∀ entry ∈ entries, ∃ exits, nestedExits[entry.1]? = some exits ∧
    ∀ id ∈ entry.2.members, Rewritten entry.1 (exits.map (resolveEdge nestedScopes))
      before.transitions[id]? after.transitions[id]?

private theorem normalizeNestedBoundary_normalized
    (yields : normalizeNestedBoundary nestedScopes nestedExits owner scope before = .ok ((), after)) :
    Normalized nestedScopes nestedExits [(owner, scope)] before after := by
  unfold normalizeNestedBoundary at yields
  cases found : nestedExits[owner]? with
  | none =>
    rw [found] at yields
    cases yields
  | some exits =>
    rw [found] at yields
    obtain ⟨_, middle, got, rest⟩ := yields_bind yields
    cases got
    obtain ⟨transitions, _, lifted, ending⟩ := yields_bind rest
    obtain ⟨rewrote, rfl⟩ := yields_lift lifted
    cases ending
    obtain ⟨others, members⟩ := rewriteNestedTerminals_rewritten rewrote
    refine ⟨rfl, rfl, rfl, ?_, ?_, ?_⟩
    · intro other record held
      by_cases same : owner = other
      · subst same
        rw [getElem?_insert_self] at held
        cases held
        exact .inr ⟨_, List.mem_cons_self, rfl⟩
      · rw [getElem?_insert_ne same] at held
        exact .inl held
    · intro id outside
      exact others id (outside _ List.mem_cons_self)
    · intro entry member
      rw [List.mem_singleton.mp member]
      exact ⟨exits, found, members⟩

theorem normalizeNestedBoundary_all {entries : List (NodeId × CompiledFlowScope)}
    (disjoint : entries.Pairwise fun left right => ∀ id ∈ left.2.members, id ∉ right.2.members)
    (yields : entries.forM (fun entry =>
      normalizeNestedBoundary nestedScopes nestedExits entry.1 entry.2) before = .ok ((), after)) :
    Normalized nestedScopes nestedExits entries before after := by
  induction entries generalizing before with
  | nil =>
    cases yields
    exact ⟨rfl, rfl, rfl, fun _ _ => .inl, fun _ _ => rfl, by simp⟩
  | cons entry entries ih =>
    obtain ⟨_, middle, first, later⟩ := yields_bind yields
    have one := normalizeNestedBoundary_normalized first
    obtain ⟨apart, disjoint⟩ := List.pairwise_cons.mp disjoint
    have rest := ih disjoint later
    refine ⟨rest.nodes.trans one.nodes, rest.branches.trans one.branches,
      rest.ids.trans one.ids, ?_, ?_, ?_⟩
    · intro owner record held
      rcases rest.records owner record held with middle | ⟨other, member, same⟩
      · rcases one.records owner record middle with old | ⟨other, member, same⟩
        · exact .inl old
        · rw [List.mem_singleton.mp member] at same
          exact .inr ⟨entry, List.mem_cons_self, same⟩
      · exact .inr ⟨other, List.mem_cons_of_mem _ member, same⟩
    · intro id outside
      rw [rest.others id fun other member => outside other (List.mem_cons_of_mem _ member)]
      refine one.others id fun other member => ?_
      rw [List.mem_singleton.mp member]
      exact outside entry List.mem_cons_self
    · intro other member
      rcases List.mem_cons.mp member with rfl | old
      · obtain ⟨exits, found, rewritten⟩ := one.members other List.mem_cons_self
        refine ⟨exits, found, fun id inside => ?_⟩
        rw [rest.others id fun later member => apart later member id inside]
        exact rewritten id inside
      · obtain ⟨exits, found, rewritten⟩ := rest.members other old
        refine ⟨exits, found, fun id inside => ?_⟩
        have untouched : middle.transitions[id]? = before.transitions[id]? := by
          refine one.others id fun only member => ?_
          rw [List.mem_singleton.mp member]
          exact fun here => apart other old id here inside
        rw [← untouched]
        exact rewritten id inside

end Boundaries

section Install

/-- The plan behind the installation of a scope's own nodes and edges. -/
structure Installed (localNodes : NodeMap (FlowNode FlowGraph)) (outgoing : Edges)
    (before after : AdvancedCompiler) : Prop where
  branches : after.splitBranchScopes = before.splitBranchScopes
  ids : after.allIds = before.allIds
  records : after.nestedRecords = before.nestedRecords
  fresh : ∀ (id : NodeId) node, localNodes[id]? = some node → before.nodes[id]? = none
  localNode : ∀ (id : NodeId) node, localNodes[id]? = some node → after.nodes[id]? = some node
  otherNode : ∀ id : NodeId, localNodes[id]? = none → after.nodes[id]? = before.nodes[id]?
  edges : ∀ (id : NodeId) edges, outgoing[id]? = some edges →
    after.transitions[id]? = some (sortTransitions edges)
  otherEdges : ∀ id : NodeId, outgoing[id]? = none →
    after.transitions[id]? = before.transitions[id]?

theorem install_installed
    (installing : installLocalNodes localNodes before = .ok ((), middle))
    (connecting : installTransitions outgoing middle = .ok ((), after)) :
    Installed localNodes outgoing before after := by
  obtain ⟨_, _, got, inserting⟩ := yields_bind installing
  cases got
  obtain ⟨nodes, _, lifted, ending⟩ := yields_bind inserting
  obtain ⟨inserted, rfl⟩ := yields_lift lifted
  cases ending
  obtain ⟨_, _, got', inserting'⟩ := yields_bind connecting
  cases got'
  obtain ⟨transitions, _, lifted', ending'⟩ := yields_bind inserting'
  obtain ⟨inserted', rfl⟩ := yields_lift lifted'
  cases ending'
  have overlaid := insertFresh_toList (fun node => node) (by simpa using inserted)
  have connected := insertFresh_toList sortTransitions inserted'
  exact
    { branches := rfl
      ids := rfl
      records := rfl
      fresh := fun id node found => ((overlaid id).1 node found).1
      localNode := fun id node found => ((overlaid id).1 node found).2
      otherNode := fun id absent => (overlaid id).2 absent
      edges := fun id edges found => ((connected id).1 edges found).2
      otherEdges := fun id absent => (connected id).2 absent }

end Install

end OxideBatch.Plan
