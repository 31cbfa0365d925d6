import OxideBatch.Plan.CompileFrame

/-! One compiled scope: its nodes are new, its walks stay inside and end, and they
are the walks of the declared flow. -/

namespace OxideBatch.Plan

open OxideBatch.Core Program
open Std (ExtTreeMap ExtTreeSet)

/-- Nodes that were installed keep their declaration and their transitions. -/
def Extends (before after : AdvancedCompiler) : Prop :=
  ∀ id : NodeId, before.nodes[id]? ≠ none →
    after.nodes[id]? = before.nodes[id]? ∧ after.transitions[id]? = before.transitions[id]?

theorem Extends.refl (compiler : AdvancedCompiler) : Extends compiler compiler :=
  fun _ _ => ⟨rfl, rfl⟩

theorem Extends.trans {first second third : AdvancedCompiler} (left : Extends first second)
    (right : Extends second third) : Extends first third := by
  intro id installed
  obtain ⟨node, edges⟩ := left id installed
  obtain ⟨node', edges'⟩ := right id (node ▸ installed)
  exact ⟨node'.trans node, edges'.trans edges⟩

theorem SameGraph.extends {before after : AdvancedCompiler} (same : SameGraph before after) :
    Extends before after :=
  fun _ _ => ⟨by rw [same.1], by rw [same.2]⟩

/-- Only installed nodes have transitions. -/
def Grounded (compiler : AdvancedCompiler) : Prop :=
  ∀ id : NodeId, compiler.nodes[id]? = none → compiler.transitions[id]? = none

/-- A grounded plan stays grounded and keeps what is installed. -/
def Grows (before after : AdvancedCompiler) : Prop :=
  Grounded before → Grounded after ∧ Extends before after

theorem Grows.refl (compiler : AdvancedCompiler) : Grows compiler compiler :=
  fun grounded => ⟨grounded, Extends.refl compiler⟩

theorem Grows.trans {first second third : AdvancedCompiler} (left : Grows first second)
    (right : Grows second third) : Grows first third := by
  intro grounded
  obtain ⟨middle, extended⟩ := left grounded
  obtain ⟨last, extended'⟩ := right middle
  exact ⟨last, extended.trans extended'⟩

theorem SameGraph.grows {before after : AdvancedCompiler} (same : SameGraph before after) :
    Grows before after := by
  intro grounded
  refine ⟨?_, same.extends⟩
  intro id absent
  rw [same.2]
  exact grounded id (same.1 ▸ absent)

/-- A walk step through the plan as compiled so far. -/
def AdvancedCompiler.step (compiler : AdvancedCompiler) (codes : NodeId → ExitCode) :
    NodeId → NodeId ⊕ Ending :=
  stepFrom compiler.nodes compiler.transitions codes

private theorem step_congr {before after : AdvancedCompiler} {id : NodeId}
    (node : after.nodes[id]? = before.nodes[id]?)
    (edges : after.transitions[id]? = before.transitions[id]?) :
    after.step codes id = before.step codes id := by
  simp only [AdvancedCompiler.step, stepFrom, selectFrom, node, edges]

/-- Where a walk goes on from the target of an edge. -/
def FlowTarget.arrive : FlowTarget → NodeId ⊕ Ending
  | .node id => .inl id
  | .terminal kind => .inr (.terminal kind)

theorem FlowTarget.arrive_inl {target : FlowTarget} {id : NodeId} (moves : target.arrive = .inl id) :
    target = .node id := by
  cases target with
  | node next =>
    cases moves
    rfl
  | terminal kind => cases moves

theorem step_split {compiler : AdvancedCompiler} {id : NodeId}
    (split : compiler.nodes[id]?.bind (·.splitJoin?) = some join) :
    compiler.step codes id = .inl join := by
  simp only [AdvancedCompiler.step, stepFrom, split]

theorem step_unknown {compiler : AdvancedCompiler} {id : NodeId}
    (single : compiler.nodes[id]?.bind (·.splitJoin?) = none)
    (absent : compiler.transitions[id]? = none) :
    compiler.step codes id = .inr (.failed (.unknownNode id)) := by
  simp only [AdvancedCompiler.step, stepFrom, single, selectFrom, absent]

theorem step_single {compiler : AdvancedCompiler} {id : NodeId}
    (single : compiler.nodes[id]?.bind (·.splitJoin?) = none)
    (found : compiler.transitions[id]? = some edges) :
    compiler.step codes id =
      match edges.find? fun edge => ExitPattern.matches edge.pattern (codes id) with
      | none => .inr (.failed (.unmappedExitOutcome id (codes id)))
      | some edge => edge.target.arrive := by
  simp only [AdvancedCompiler.step, stepFrom, single, selectFrom, found]
  cases edges.find? fun edge => ExitPattern.matches edge.pattern (codes id) with
  | none => rfl
  | some edge =>
    cases leads : edge.target with
    | node id => simp only [leads, FlowTarget.arrive]
    | terminal kind => simp only [leads, FlowTarget.arrive]

/-- What a compiled scope promises about the plan it was compiled into. -/
structure Sealed (before after : AdvancedCompiler) (scope : CompiledFlowScope) : Prop where
  fresh : ∀ id ∈ scope.members, before.nodes[id]? = none
  installed : ∀ id ∈ scope.members, after.nodes[id]? ≠ none
  entry : scope.entry ∈ scope.members
  closed : ∀ codes, ∀ id ∈ scope.members, ∀ target, after.step codes id = .inl target →
    target ∈ scope.members
  known : ∀ codes, ∀ id ∈ scope.members, ∀ other,
    after.step codes id ≠ .inr (.failed (.unknownNode other))

/-- The walk of the compiled scope is the walk of the declared flow. -/
def Faithful (compiler : AdvancedCompiler) (graph : FlowGraph) (scope : CompiledFlowScope) : Prop :=
  ∀ codes, ∃ start visited ending, graph.entry = some start ∧
    Walk.Runs (compiler.step codes) scope.entry visited ending ∧
    Interprets codes graph start (visited, ending)

theorem Sealed.later {before middle after : AdvancedCompiler} (held : Sealed before middle scope)
    (grown : Extends middle after) : Sealed before after scope := by
  have same : ∀ codes, ∀ id ∈ scope.members, after.step codes id = middle.step codes id := by
    intro codes id member
    obtain ⟨node, edges⟩ := grown id (held.installed id member)
    exact step_congr node edges
  refine ⟨held.fresh, ?_, held.entry, ?_, ?_⟩
  · intro id member
    rw [(grown id (held.installed id member)).1]
    exact held.installed id member
  · intro codes id member target moves
    rw [same codes id member] at moves
    exact held.closed codes id member target moves
  · intro codes id member other
    rw [same codes id member]
    exact held.known codes id member other

theorem Sealed.earlier {before middle after : AdvancedCompiler} (held : Sealed middle after scope)
    (grown : Extends before middle) : Sealed before after scope := by
  refine ⟨?_, held.installed, held.entry, held.closed, held.known⟩
  intro id member
  by_contra installed
  exact installed ((grown id installed).1.symm.trans (held.fresh id member))

theorem Sealed.contains {before after : AdvancedCompiler} (held : Sealed before after scope)
    (runs : Walk.Runs (after.step codes) scope.entry visited ending) :
    ∀ id ∈ visited, id ∈ scope.members :=
  runs.subset held.entry fun id target member => held.closed codes id member target

theorem Faithful.later {before middle after : AdvancedCompiler} (faithful : Faithful middle graph scope)
    (held : Sealed before middle scope) (grown : Extends middle after) :
    Faithful after graph scope := by
  intro codes
  obtain ⟨start, visited, ending, entry, runs, interprets⟩ := faithful codes
  refine ⟨start, visited, ending, entry, runs.congr fun id member => ?_, interprets⟩
  obtain ⟨node, edges⟩ := grown id (held.installed id (held.contains runs id member))
  exact step_congr node edges

/-- Compiling a flow extends the plan by a scope that walks as the flow does. -/
def Compiles (compile : FlowGraph → CompilerM CompiledFlowScope) : Prop :=
  ∀ graph before scope after, Grounded before → compile graph before = .ok (scope, after) →
    Grounded after ∧ Extends before after ∧ Sealed before after scope ∧ Faithful after graph scope

section Nested

/-- The nested flows of a scope, compiled one after the other. -/
structure NestedCompiled (before after : AdvancedCompiler) (flows : List (NodeId × FlowGraph))
    (scopes : NodeMap CompiledFlowScope) : Prop where
  grounded : Grounded after
  grown : Extends before after
  present : ∀ flow ∈ flows, scopes[flow.1]? ≠ none
  each : ∀ (owner : NodeId) (scope : CompiledFlowScope), scopes[owner]? = some scope →
    ∃ inner, (owner, inner) ∈ flows ∧ Sealed before after scope ∧ Faithful after inner scope
  disjoint : ∀ (owner owner' : NodeId) (scope scope' : CompiledFlowScope),
    scopes[owner]? = some scope → scopes[owner']? = some scope' → owner ≠ owner' →
    ∀ id ∈ scope.members, id ∉ scope'.members

theorem NestedCompiled.later {before middle after : AdvancedCompiler}
    (compiled : NestedCompiled before middle flows scopes) (grows : Grows middle after) :
    NestedCompiled before after flows scopes := by
  obtain ⟨grounded, grown⟩ := grows compiled.grounded
  refine ⟨grounded, compiled.grown.trans grown, compiled.present, ?_, compiled.disjoint⟩
  intro owner scope found
  obtain ⟨inner, member, held, faithful⟩ := compiled.each owner scope found
  exact ⟨inner, member, held.later grown, faithful.later held grown⟩

theorem NestedCompiled.earlier {before middle after : AdvancedCompiler}
    (compiled : NestedCompiled middle after flows scopes) (grown : Extends before middle) :
    NestedCompiled before after flows scopes := by
  refine ⟨compiled.grounded, grown.trans compiled.grown, compiled.present, ?_, compiled.disjoint⟩
  intro owner scope found
  obtain ⟨inner, member, held, faithful⟩ := compiled.each owner scope found
  exact ⟨inner, member, held.earlier grown, faithful⟩

theorem NestedCompiled.snoc {before middle after : AdvancedCompiler} {inner : FlowGraph}
    (compiled : NestedCompiled before middle flows scopes) (grounded : Grounded after)
    (grown : Extends middle after) (held : Sealed middle after scope)
    (faithful : Faithful after inner scope) :
    NestedCompiled before after (flows ++ [(owner, inner)]) (scopes.insert owner scope) := by
  have kept := compiled.later fun _ => ⟨grounded, grown⟩
  have installed : ∀ (other : NodeId) (old : CompiledFlowScope), scopes[other]? = some old →
      ∀ id ∈ old.members, middle.nodes[id]? ≠ none := by
    intro other old found id member
    obtain ⟨_, _, sealedOld, _⟩ := compiled.each other old found
    exact sealedOld.installed id member
  refine ⟨grounded, kept.grown, ?_, ?_, ?_⟩
  · intro flow member
    by_cases same : owner = flow.1
    · rw [← same, getElem?_insert_self]
      simp
    · rw [getElem?_insert_ne same]
      rcases List.mem_append.mp member with old | new
      · exact compiled.present flow old
      · rw [List.mem_singleton.mp new] at same
        exact False.elim (same rfl)
  · intro other found here
    by_cases same : owner = other
    · subst same
      rw [getElem?_insert_self] at here
      cases here
      exact ⟨inner, by simp, held.earlier compiled.grown, faithful⟩
    · rw [getElem?_insert_ne same] at here
      obtain ⟨graph, member, sealedOld, faithfulOld⟩ := kept.each other found here
      exact ⟨graph, List.mem_append_left _ member, sealedOld, faithfulOld⟩
  · intro first second one two foundOne foundTwo different id inside inside'
    by_cases isFirst : owner = first
    · subst isFirst
      rw [getElem?_insert_self] at foundOne
      rw [getElem?_insert_ne different] at foundTwo
      cases foundOne
      exact installed second two foundTwo id inside' (held.fresh id inside)
    · rw [getElem?_insert_ne isFirst] at foundOne
      by_cases isSecond : owner = second
      · subst isSecond
        rw [getElem?_insert_self] at foundTwo
        cases foundTwo
        exact installed first one foundOne id inside (held.fresh id inside')
      · rw [getElem?_insert_ne isSecond] at foundTwo
        exact compiled.disjoint first second one two foundOne foundTwo different id inside inside'

theorem compileNestedScopes_compiled {descend : FlowGraph → CompilerM CompiledFlowScope}
    (compiles : Compiles descend) (grounded : Grounded before)
    (yields : compileNestedScopes descend nested before = .ok (scopes, after)) :
    NestedCompiled before after nested.toList scopes := by
  have general : ∀ (rest done : List (NodeId × FlowGraph)) (held : NodeMap CompiledFlowScope)
      (middle : AdvancedCompiler), NestedCompiled before middle done held →
      rest.foldlM (compileNestedScope descend) held middle = .ok (scopes, after) →
      NestedCompiled before after (done ++ rest) scopes := by
    intro rest
    induction rest with
    | nil =>
      intro done held middle compiled ended
      cases ended
      rw [List.append_nil]
      exact compiled
    | cons flow rest ih =>
      intro done held middle compiled ended
      rw [List.foldlM_cons] at ended
      obtain ⟨next, later, first, ended⟩ := yields_bind ended
      obtain ⟨scope, state, compiledOne, ending⟩ := yields_bind first
      obtain ⟨rfl, rfl⟩ := yields_pure ending
      obtain ⟨grounded', grown, held', faithful⟩ := compiles _ _ _ _ compiled.grounded compiledOne
      have whole := ih _ _ _ (compiled.snoc grounded' grown held' faithful) ended
      rw [List.append_assoc] at whole
      exact whole
  refine general nested.toList [] ∅ before ⟨grounded, Extends.refl _, by simp, ?_, ?_⟩ yields
  · intro owner scope found
    simp at found
  · intro owner owner' scope scope' found
    simp at found

end Nested

section Materialize

variable {descend : FlowGraph → CompilerM CompiledFlowScope}

private theorem materializeBranch_grows (compiles : Compiles descend) (id : NodeId) (ordinal : Nat)
    (branch : SplitBranch FlowGraph) : Keeps Grows (materializeBranch descend id ordinal branch) := by
  have modified : ∀ change : AdvancedCompiler → AdvancedCompiler,
      (∀ compiler, SameGraph compiler (change compiler)) →
      Keeps Grows (modify change : CompilerM PUnit) :=
    fun change same => Keeps.modify fun compiler => (same compiler).grows
  refine Keeps.bind Grows.trans (modified _ fun _ => ⟨rfl, rfl⟩) fun _ => ?_
  refine Keeps.bind Grows.trans
    (fun _ _ _ yields => (quiet_checkMaterializedNodes _ _ _ yields).same.grows) fun _ => ?_
  split
  · refine Keeps.bind Grows.trans (fun _ _ _ yields grounded => ?_) fun scope => ?_
    · obtain ⟨grounded', grown, _⟩ := compiles _ _ _ _ grounded yields
      exact ⟨grounded', grown⟩
    · exact modified _ fun _ => ⟨rfl, rfl⟩
  · split
    · exact Keeps.throw _
    · refine Keeps.forM Grows.refl Grows.trans (fun step => ?_) _
      exact fun _ _ _ yields => (quiet_reserveId _ _ _ _ yields).same.grows

/-- What `materialize_split` checks before it materializes the branches. -/
structure SplitAccepted (declaredEntry id : NodeId) (split : SplitNode FlowGraph)
    (localNodes : NodeMap (FlowNode FlowGraph)) (owners : NodeMap NodeId) : Prop where
  inner : id ≠ declaredEntry
  several : 2 ≤ split.branches.length
  few : split.branches.length ≤ maxSplitBranches
  join : ∃ join, localNodes[split.join]? = some join ∧ join.isJoin = true
  unowned : owners[split.join]? = none

theorem materializeSplit_yields
    (yields : materializeSplit descend declaredEntry source split localNodes owners before =
      .ok (owners', after)) :
    SplitAccepted declaredEntry source split localNodes owners ∧
      owners' = owners.insert split.join source ∧
      split.branches.zipIdx.forM (fun branch => materializeBranch descend source branch.2 branch.1)
        before = .ok ((), after) := by
  unfold materializeSplit at yields
  split at yields
  · cases yields
  · rename_i inner
    split at yields
    · cases yields
    · rename_i count
      split at yields
      · cases yields
      · split at yields
        · cases yields
        · rename_i joined
          have join : ∃ join, localNodes[split.join]? = some join ∧ join.isJoin = true := by
            simpa [Option.any_eq_true] using joined
          cases owned : owners[split.join]? with
          | some first =>
            rw [owned] at yields
            cases yields
          | none =>
            rw [owned] at yields
            obtain ⟨_, middle, materialized, ending⟩ := yields_bind yields
            obtain ⟨rfl, rfl⟩ := yields_pure ending
            exact ⟨⟨inner, by omega, by omega, join, owned⟩, rfl, materialized⟩

/-- A split that materializes has a declared join. -/
private theorem materializeSplit_grows (compiles : Compiles descend)
    (yields : materializeSplit descend declaredEntry source split localNodes owners before =
      .ok (owners', after)) :
    Grows before after ∧ ∃ join, localNodes[split.join]? = some join ∧ join.isJoin = true := by
  obtain ⟨accepted, _, materialized⟩ := materializeSplit_yields yields
  refine ⟨?_, accepted.join⟩
  exact Keeps.forM Grows.refl Grows.trans
    (fun branch => materializeBranch_grows compiles _ _ _) _ _ _ _ materialized

private theorem materializeNode_grows (compiles : Compiles descend)
    (yields : materializeNode descend declaredEntry localNodes owners entry before =
      .ok (owners', after)) :
    Grows before after ∧ ∀ join, entry.2.splitJoin? = some join →
      ∃ node, localNodes[join]? = some node ∧ node.isJoin = true := by
  obtain ⟨source, node⟩ := entry
  cases node with
  | split split =>
    obtain ⟨grown, joined⟩ := materializeSplit_grows compiles yields
    refine ⟨grown, fun join same => ?_⟩
    cases same
    exact joined
  | partitionedStep node =>
    obtain ⟨_, middle, reserved, ending⟩ := yields_bind yields
    obtain ⟨_, rfl⟩ := yields_pure ending
    exact ⟨(quiet_reserveId _ _ _ _ reserved).same.grows, fun join same => by cases same⟩
  | step _ | decision _ | nestedJob _ | customLeaf _ | join _ =>
    obtain ⟨_, rfl⟩ := yields_pure yields
    exact ⟨Grows.refl _, fun join same => by cases same⟩

/-- The nodes are materialized in order, and no join is left without a split. -/
theorem materializeLocalStructure_yields
    (yields : materializeLocalStructure descend declaredEntry localNodes before = .ok ((), after)) :
    ∃ owners, localNodes.toList.foldlM (materializeNode descend declaredEntry localNodes) ∅ before =
        .ok (owners, after) ∧
      ∀ entry ∈ localNodes.toList, entry.2.isJoin = true → owners.contains entry.1 = true := by
  obtain ⟨owners, middle, folded, ending⟩ := yields_bind yields
  cases orphan : localNodes.toList.find? fun entry =>
      entry.2.isJoin && !owners.contains entry.1 with
  | some entry =>
    rw [orphan] at ending
    cases ending
  | none =>
    rw [orphan] at ending
    obtain ⟨_, rfl⟩ := yields_pure ending
    refine ⟨owners, folded, fun entry member joins => ?_⟩
    have owned := List.find?_eq_none.mp orphan entry member
    simpa [joins] using owned

private theorem materializeLocalStructure_grows (compiles : Compiles descend)
    (yields : materializeLocalStructure descend declaredEntry localNodes before = .ok ((), after)) :
    Grows before after ∧ ∀ entry ∈ localNodes.toList, ∀ join, entry.2.splitJoin? = some join →
      ∃ node, localNodes[join]? = some node ∧ node.isJoin = true := by
  have general : ∀ (entries : List (NodeId × FlowNode FlowGraph)) (owners owners' : NodeMap NodeId)
      (first last : AdvancedCompiler),
      entries.foldlM (materializeNode descend declaredEntry localNodes) owners first =
        .ok (owners', last) →
      Grows first last ∧ ∀ entry ∈ entries, ∀ join, entry.2.splitJoin? = some join →
        ∃ node, localNodes[join]? = some node ∧ node.isJoin = true := by
    intro entries
    induction entries with
    | nil =>
      intro owners owners' first last ended
      cases ended
      exact ⟨Grows.refl _, by simp⟩
    | cons entry entries ih =>
      intro owners owners' first last ended
      rw [List.foldlM_cons] at ended
      obtain ⟨middle, state, one, later⟩ := yields_bind ended
      obtain ⟨grown, joined⟩ := materializeNode_grows compiles one
      obtain ⟨grown', joined'⟩ := ih _ _ _ _ later
      refine ⟨grown.trans grown', ?_⟩
      intro other member
      rcases List.mem_cons.mp member with rfl | old
      · exact joined
      · exact joined' other old
  obtain ⟨owners, folded, _⟩ := materializeLocalStructure_yields yields
  exact general _ _ _ _ _ folded

end Materialize

section Assemble

/-- Everything `compile_scope` puts together: the parts it prepared, the plan
`middle` behind its nested scopes and splits, and the plan it ends with. -/
structure Assembled (graph : FlowGraph) (before middle after : AdvancedCompiler)
    (prepared : PreparedScope) (nestedScopes : NodeMap CompiledFlowScope)
    (partitions : Edges × Edges) (scope : CompiledFlowScope) : Prop where
  ready : Prepared graph prepared
  nested : NestedCompiled before middle prepared.nested.toList nestedScopes
  joins : ∀ (id : NodeId) node join, prepared.localNodes[id]? = some node →
    node.splitJoin? = some join →
    ∃ joined, prepared.localNodes[join]? = some joined ∧ joined.isJoin = true
  partitioned : Partitioned prepared.localNodes nestedScopes prepared.transitions partitions
  apart : ∀ owner, nestedScopes.contains owner = true →
    (edgesOf partitions.2 owner).Pairwise Apart
  fresh : ∀ (id : NodeId) node, prepared.localNodes[id]? = some node → middle.nodes[id]? = none
  localNode : ∀ (id : NodeId) node, prepared.localNodes[id]? = some node →
    after.nodes[id]? = some node
  otherNode : ∀ id : NodeId, prepared.localNodes[id]? = none →
    after.nodes[id]? = middle.nodes[id]?
  localEdges : ∀ (id : NodeId) node, prepared.localNodes[id]? = some node →
    after.transitions[id]? = partitions.1[id]?.map fun edges =>
      sortTransitions (edges.map (resolveEdge nestedScopes))
  memberEdges : ∀ (owner : NodeId) inner, nestedScopes[owner]? = some inner →
    ∀ id ∈ inner.members, Rewritten owner
      ((sortTransitions (edgesOf partitions.2 owner)).map (resolveEdge nestedScopes))
      middle.transitions[id]? after.transitions[id]?
  otherEdges : ∀ id : NodeId, prepared.localNodes[id]? = none →
    (∀ (owner : NodeId) inner, nestedScopes[owner]? = some inner → id ∉ inner.members) →
    after.transitions[id]? = middle.transitions[id]?
  entry : scope.entry =
    (nestedScopes[prepared.declaredEntry]?.map (·.entry)).getD prepared.declaredEntry
  members : ∀ id, id ∈ scope.members ↔ prepared.localNodes[id]? ≠ none ∨
    ∃ (owner : NodeId) (inner : CompiledFlowScope), nestedScopes[owner]? = some inner ∧ id ∈ inner.members
  valid : validateScope after scope.entry scope.members = .ok ()

theorem mem_foldl_union (entries : List (NodeId × CompiledFlowScope)) (start : ExtTreeSet NodeId)
    (id : NodeId) :
    id ∈ entries.foldl (fun members entry => members ∪ entry.2.members) start ↔
      id ∈ start ∨ ∃ entry ∈ entries, id ∈ entry.2.members := by
  induction entries generalizing start with
  | nil => simp
  | cons entry entries ih =>
    rw [List.foldl_cons, ih]
    simp [or_assoc]

/-- Nested scopes that do not share members, in the order they are normalized. -/
theorem NestedCompiled.pairwise {before after : AdvancedCompiler}
    (compiled : NestedCompiled before after flows scopes) :
    scopes.toList.Pairwise fun left right => ∀ id ∈ left.2.members, id ∉ right.2.members := by
  refine ExtTreeMap.distinct_keys_toList.imp_of_mem ?_
  intro left right inLeft inRight different
  refine compiled.disjoint left.1 right.1 left.2 right.2
    (ExtTreeMap.mem_toList_iff_getElem?_eq_some.mp inLeft)
    (ExtTreeMap.mem_toList_iff_getElem?_eq_some.mp inRight) ?_
  exact Std.ReflCmp.ne_of_cmp_ne_eq different

theorem Assembled.of_parts {before middle third after : AdvancedCompiler}
    (ready : Prepared graph prepared)
    (nested : NestedCompiled before middle prepared.nested.toList nestedScopes)
    (joins : ∀ entry ∈ prepared.localNodes.toList, ∀ join, entry.2.splitJoin? = some join →
      ∃ node, prepared.localNodes[join]? = some node ∧ node.isJoin = true)
    (partitioned : Partitioned prepared.localNodes nestedScopes prepared.transitions partitions)
    (sorted : validateNestedExits nestedScopes partitions.2 = .ok nestedExits)
    (normalized : Normalized nestedScopes nestedExits nestedScopes.toList middle third)
    (installed : Installed prepared.localNodes
      (partitions.1.map fun _ edges => edges.map (resolveEdge nestedScopes)) third after)
    (entry : scope.entry =
      (nestedScopes[prepared.declaredEntry]?.map (·.entry)).getD prepared.declaredEntry)
    (members : scope.members = nestedScopes.toList.foldl
      (fun members entry => members ∪ entry.2.members) (ExtTreeSet.ofList prepared.localNodes.keys))
    (valid : validateScope after scope.entry scope.members = .ok ()) :
    Assembled graph before middle after prepared nestedScopes partitions scope := by
  have outside : ∀ (id : NodeId) node, prepared.localNodes[id]? = some node →
      ∀ nestedEntry ∈ nestedScopes.toList, id ∉ nestedEntry.2.members := by
    intro id node found nestedEntry present member
    obtain ⟨_, _, held, _⟩ := nested.each nestedEntry.1 nestedEntry.2
      (ExtTreeMap.mem_toList_iff_getElem?_eq_some.mp present)
    apply held.installed id member
    rw [← normalized.nodes]
    exact installed.fresh id node found
  have notOutgoing : ∀ id : NodeId, prepared.localNodes[id]? = none → partitions.1[id]? = none := by
    intro id absent
    by_contra present
    have contained : partitions.1.contains id = true := by
      rw [ExtTreeMap.contains_eq_isSome_getElem?]
      exact Option.isSome_iff_ne_none.mpr present
    have declared := partitioned.owned id contained
    rw [ExtTreeMap.contains_eq_isSome_getElem?, absent] at declared
    cases declared
  exact
    { ready, nested, partitioned, entry, valid
      joins := fun id node join found => joins (id, node)
        (ExtTreeMap.mem_toList_iff_getElem?_eq_some.mpr found) join
      apart := fun owner owned => (validateNestedExits_sorted sorted owner owned).2
      fresh := by
        intro id node found
        rw [← normalized.nodes]
        exact installed.fresh id node found
      localNode := installed.localNode
      otherNode := by
        intro id absent
        rw [installed.otherNode id absent, normalized.nodes]
      localEdges := by
        intro id node found
        cases outgoing : partitions.1[id]? with
        | some edges =>
          exact installed.edges id (edges.map (resolveEdge nestedScopes)) (by simp [outgoing])
        | none =>
          rw [installed.otherEdges id (by simp [outgoing]),
            normalized.others id (outside id node found)]
          apply nested.grounded
          rw [← normalized.nodes]
          exact installed.fresh id node found
      memberEdges := by
        intro owner inner found id member
        have present := ExtTreeMap.mem_toList_iff_getElem?_eq_some.mpr found
        obtain ⟨exits, exitsFound, rewritten⟩ := normalized.members _ present
        have owned : nestedScopes.contains owner = true := by
          rw [ExtTreeMap.contains_eq_isSome_getElem?, found]
          rfl
        have sortedExits := (validateNestedExits_sorted sorted owner owned).1
        rw [exitsFound] at sortedExits
        cases sortedExits
        have absent : prepared.localNodes[id]? = none := by
          cases localNode : prepared.localNodes[id]? with
          | none => rfl
          | some node => exact False.elim (outside id node localNode _ present member)
        rw [installed.otherEdges id (by simp [notOutgoing id absent])]
        exact rewritten id member
      otherEdges := by
        intro id absent away
        rw [installed.otherEdges id (by simp [notOutgoing id absent])]
        apply normalized.others
        intro nestedEntry present
        exact away nestedEntry.1 nestedEntry.2
          (ExtTreeMap.mem_toList_iff_getElem?_eq_some.mp present)
      members := by
        intro id
        rw [members, mem_foldl_union]
        refine or_congr ?_ ?_
        · rw [ExtTreeSet.mem_ofList, List.contains_iff_mem, ExtTreeMap.mem_keys,
            ExtTreeMap.mem_iff_isSome_getElem?, Option.isSome_iff_ne_none]
        · simp only [Prod.exists, ExtTreeMap.mem_toList_iff_getElem?_eq_some] }

/-- The stages `compile_scope` goes through, with the plan behind each of them. -/
structure Stages (descend : FlowGraph → CompilerM CompiledFlowScope) (graph : FlowGraph)
    (before first second middle third fourth after : AdvancedCompiler) (prepared : PreparedScope)
    (nestedScopes : NodeMap CompiledFlowScope) (partitions : Edges × Edges) (nestedExits : Edges)
    (scope : CompiledFlowScope) : Prop where
  preparing : prepareScope graph before = .ok (prepared, first)
  nesting : compileNestedScopes descend prepared.nested first = .ok (nestedScopes, second)
  materializing : materializeLocalStructure descend prepared.declaredEntry prepared.localNodes
    second = .ok ((), middle)
  partitioning : partitionTransitions prepared.transitions prepared.localNodes nestedScopes =
    .ok partitions
  sorting : validateNestedExits nestedScopes partitions.2 = .ok nestedExits
  normalizing : nestedScopes.toList.forM (fun entry =>
    normalizeNestedBoundary nestedScopes nestedExits entry.1 entry.2) middle = .ok ((), third)
  installing : installLocalNodes prepared.localNodes third = .ok ((), fourth)
  connecting : installTransitions
    (partitions.1.map fun _ edges => edges.map (resolveEdge nestedScopes)) fourth = .ok ((), after)
  entry : scope.entry =
    (nestedScopes[prepared.declaredEntry]?.map (·.entry)).getD prepared.declaredEntry
  members : scope.members = nestedScopes.toList.foldl
    (fun members entry => members ∪ entry.2.members) (ExtTreeSet.ofList prepared.localNodes.keys)
  valid : validateScope after scope.entry scope.members = .ok ()

theorem compileScopeWith_stages {descend : FlowGraph → CompilerM CompiledFlowScope}
    (yields : compileScopeWith descend graph before = .ok (scope, after)) :
    ∃ first second middle third fourth prepared nestedScopes partitions nestedExits,
      Stages descend graph before first second middle third fourth after prepared nestedScopes
        partitions nestedExits scope := by
  obtain ⟨prepared, first, preparing, toNest⟩ := yields_bind yields
  obtain ⟨nestedScopes, second, nesting, toMaterialize⟩ := yields_bind toNest
  obtain ⟨_, middle, materializing, toPartition⟩ := yields_bind toMaterialize
  obtain ⟨partitions, _, lifted, toSort⟩ := yields_bind toPartition
  obtain ⟨partitioning, rfl⟩ := yields_lift lifted
  obtain ⟨nestedExits, _, lifted', toNormalize⟩ := yields_bind toSort
  obtain ⟨sorting, rfl⟩ := yields_lift lifted'
  obtain ⟨outgoing, _, resolving, toInstall⟩ := yields_bind toNormalize
  obtain ⟨_, third, normalizing, toOutgoing⟩ := yields_bind resolving
  obtain ⟨rfl, rfl⟩ := yields_pure toOutgoing
  obtain ⟨_, fourth, installing, toConnect⟩ := yields_bind toInstall
  obtain ⟨_, fifth, connecting, toRead⟩ := yields_bind toConnect
  obtain ⟨_, _, reading, toValidate⟩ := yields_bind toRead
  cases reading
  obtain ⟨_, _, validating, toEnd⟩ := yields_bind toValidate
  obtain ⟨valid, rfl⟩ := yields_lift validating
  obtain ⟨rfl, rfl⟩ := yields_pure toEnd
  refine ⟨first, second, middle, third, fourth, prepared, nestedScopes, partitions, nestedExits, ?_⟩
  exact ⟨preparing, nesting, materializing, partitioning, sorting, normalizing, installing,
    connecting, rfl, rfl, valid⟩

theorem Stages.assembled {descend : FlowGraph → CompilerM CompiledFlowScope}
    {before first second middle third fourth after : AdvancedCompiler} (compiles : Compiles descend)
    (grounded : Grounded before)
    (stages : Stages descend graph before first second middle third fourth after prepared
      nestedScopes partitions nestedExits scope) :
    Assembled graph before middle after prepared nestedScopes partitions scope := by
  obtain ⟨ready, quiet, _⟩ := prepareScope_prepared stages.preparing
  obtain ⟨firstGrounded, extended⟩ := quiet.same.grows grounded
  obtain ⟨grows, joins⟩ := materializeLocalStructure_grows compiles stages.materializing
  have nested := ((compileNestedScopes_compiled compiles firstGrounded stages.nesting).earlier
    extended).later grows
  exact Assembled.of_parts ready nested joins
    (partitionTransitions_partitioned stages.partitioning) stages.sorting
    (normalizeNestedBoundary_all nested.pairwise stages.normalizing)
    (install_installed stages.installing stages.connecting) stages.entry stages.members stages.valid

end Assemble

end OxideBatch.Plan
