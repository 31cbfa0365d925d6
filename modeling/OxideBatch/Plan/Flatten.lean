import OxideBatch.Plan.CompileScope

/-! Flattening keeps the meaning of a flow: a walk through the compiled plan is the
walk of the hierarchical interpreter. -/

namespace OxideBatch.Plan

open OxideBatch.Core Program
open Std (ExtTreeMap ExtTreeSet)

section Valid

/-- What an accepted scope promises of each member that is no split. -/
structure ValidEdges (compiler : AdvancedCompiler) (members : ExtTreeSet NodeId)
    (edges : List FlowTransition) : Prop where
  apart : edges.Pairwise Apart
  inside : ∀ edge ∈ edges, ∀ target, edge.target = .node target → target ∈ members

theorem validateMember_edges {id : NodeId} {node : FlowNode FlowGraph}
    (valid : validateMember compiler members id = .ok ())
    (installed : compiler.nodes[id]? = some node) (single : node.splitJoin? = none) :
    ∃ edges, compiler.transitions[id]? = some edges ∧ ValidEdges compiler members edges := by
  unfold validateMember validateMemberUnder at valid
  rw [installed] at valid
  simp only [single, Option.isSome_none, Bool.false_eq_true, if_false] at valid
  cases found : compiler.transitions[id]? with
  | none =>
    rw [found] at valid
    cases valid
  | some edges =>
    rw [found] at valid
    cases edges with
    | nil => cases valid
    | cons edge edges =>
      obtain ⟨_, unambiguous, rest⟩ := bind_eq_ok valid
      refine ⟨_, rfl, apart_of_checkUnambiguous unambiguous, ?_⟩
      intro other member target leads
      split at rest
      · cases rest
      · rename_i inside
        have refused := List.findSome?_eq_none_iff.mp inside other member
        rw [leads] at refused
        simpa using refused

theorem validateScope_valid (valid : validateScope compiler entry members = .ok ()) :
    entry ∈ members ∧ (∀ id ∈ members, validateMember compiler members id = .ok ()) ∧
      Acc (DepthFirst.Leads (expandScope compiler members)) entry := by
  unfold validateScope validateScopeUnder at valid
  split at valid
  · cases valid
  · rename_i contained
    obtain ⟨_, checked, searching⟩ := bind_eq_ok valid
    obtain ⟨visited, searched, _⟩ := bind_eq_ok searching
    refine ⟨by simpa using contained, ?_, DepthFirst.acc_of_visit searched⟩
    intro id member
    exact forM_eq_ok checked id (by simpa using member)

end Valid

section Assembled

variable {graph : FlowGraph} {before middle after : AdvancedCompiler} {prepared : PreparedScope}
  {nestedScopes : NodeMap CompiledFlowScope} {partitions : Edges × Edges} {scope : CompiledFlowScope}

namespace Assembled

/-- A member of a nested scope is no node of the scope itself. -/
theorem notLocal {owner id : NodeId} {inner : CompiledFlowScope}
    (assembled : Assembled graph before middle after prepared nestedScopes partitions scope)
    (found : nestedScopes[owner]? = some inner) (member : id ∈ inner.members) :
    prepared.localNodes[id]? = none := by
  obtain ⟨_, _, held, _⟩ := assembled.nested.each owner inner found
  cases here : prepared.localNodes[id]? with
  | none => rfl
  | some node => exact False.elim (held.installed id member (assembled.fresh id node here))

theorem grounded
    (assembled : Assembled graph before middle after prepared nestedScopes partitions scope) :
    Grounded after := by
  intro id absent
  have foreign : prepared.localNodes[id]? = none := by
    cases here : prepared.localNodes[id]? with
    | none => rfl
    | some node =>
      rw [assembled.localNode id node here] at absent
      cases absent
  rw [assembled.otherNode id foreign] at absent
  rw [assembled.otherEdges id foreign]
  · exact assembled.nested.grounded id absent
  · intro owner inner found member
    obtain ⟨_, _, held, _⟩ := assembled.nested.each owner inner found
    exact held.installed id member absent

theorem extended
    (assembled : Assembled graph before middle after prepared nestedScopes partitions scope) :
    Extends before after := by
  intro id installed
  obtain ⟨node, edges⟩ := assembled.nested.grown id installed
  have foreign : prepared.localNodes[id]? = none := by
    cases here : prepared.localNodes[id]? with
    | none => rfl
    | some _ => exact False.elim (installed (node.symm.trans (assembled.fresh id _ here)))
  rw [assembled.otherNode id foreign, assembled.otherEdges id foreign]
  · exact ⟨node, edges⟩
  · intro owner inner found member
    obtain ⟨_, _, held, _⟩ := assembled.nested.each owner inner found
    exact installed (held.fresh id member)

/-- The plan behind a move: the join of a split or the target of an edge. -/
private theorem step_inl {id target : NodeId} (moves : after.step codes id = .inl target) :
    (∃ node, after.nodes[id]? = some node ∧ node.splitJoin? = some target) ∨
      (after.nodes[id]?.bind (·.splitJoin?) = none ∧ ∃ edges edge,
        after.transitions[id]? = some edges ∧ edge ∈ edges ∧ edge.target = .node target) := by
  cases split : after.nodes[id]?.bind (·.splitJoin?) with
  | some join =>
    rw [step_split split] at moves
    cases moves
    exact .inl (Option.bind_eq_some_iff.mp split)
  | none =>
    refine .inr ⟨rfl, ?_⟩
    cases found : after.transitions[id]? with
    | none =>
      rw [step_unknown split found] at moves
      cases moves
    | some edges =>
      rw [step_single split found] at moves
      cases selected : edges.find? fun edge => ExitPattern.matches edge.pattern (codes id) with
      | none =>
        rw [selected] at moves
        cases moves
      | some edge =>
        rw [selected] at moves
        refine ⟨edges, edge, rfl, List.mem_of_find?_eq_some selected, ?_⟩
        exact FlowTarget.arrive_inl moves

theorem closed {id target : NodeId}
    (assembled : Assembled graph before middle after prepared nestedScopes partitions scope)
    (member : id ∈ scope.members) (moves : after.step codes id = .inl target) :
    target ∈ scope.members := by
  obtain ⟨_, checked, _⟩ := validateScope_valid assembled.valid
  rcases step_inl moves with ⟨node, installed, split⟩ | ⟨single, edges, edge, found, held, leads⟩
  · rw [assembled.members]
    rcases (assembled.members id).mp member with own | ⟨owner, inner, found, inside⟩
    · obtain ⟨declared, here⟩ := Option.ne_none_iff_exists'.mp own
      cases (assembled.localNode id declared here).symm.trans installed
      obtain ⟨joined, present, _⟩ := assembled.joins id node target here split
      exact .inl (by rw [present]; simp)
    · obtain ⟨_, _, kept, _⟩ := assembled.nested.each owner inner found
      refine .inr ⟨owner, inner, found, kept.closed codes id inside target ?_⟩
      rw [assembled.otherNode id (assembled.notLocal found inside)] at installed
      exact step_split (by rw [installed]; exact split)
  · have valid := checked id member
    cases installed : after.nodes[id]? with
    | none =>
      unfold validateMember validateMemberUnder at valid
      rw [installed] at valid
      cases valid
    | some node =>
      rw [installed] at single
      obtain ⟨edges', found', accepted⟩ := validateMember_edges valid installed single
      cases found.symm.trans found'
      exact accepted.inside edge held target leads

/-- Every member has a declaration, and its transitions if it is no split. -/
private theorem step_known {id : NodeId} (codes : NodeId → ExitCode) (other : NodeId)
    (assembled : Assembled graph before middle after prepared nestedScopes partitions scope)
    (member : id ∈ scope.members) :
    after.step codes id ≠ .inr (.failed (.unknownNode other)) := by
  obtain ⟨_, checked, _⟩ := validateScope_valid assembled.valid
  have valid := checked id member
  intro unknown
  cases installed : after.nodes[id]? with
  | none =>
    unfold validateMember validateMemberUnder at valid
    rw [installed] at valid
    cases valid
  | some node =>
    cases split : node.splitJoin? with
    | some join =>
      rw [step_split (by rw [installed]; exact split)] at unknown
      cases unknown
    | none =>
      obtain ⟨edges, found, _⟩ := validateMember_edges valid installed split
      rw [step_single (by rw [installed]; exact split) found] at unknown
      cases selected : edges.find? fun edge => ExitPattern.matches edge.pattern (codes id) with
      | none =>
        rw [selected] at unknown
        cases unknown
      | some edge =>
        rw [selected] at unknown
        cases leads : edge.target with
        | node target =>
          dsimp only at unknown
          rw [leads] at unknown
          cases unknown
        | terminal kind =>
          dsimp only at unknown
          rw [leads] at unknown
          cases unknown

private theorem isSealed
    (assembled : Assembled graph before middle after prepared nestedScopes partitions scope) :
    Sealed before after scope := by
  obtain ⟨entry, _, _⟩ := validateScope_valid assembled.valid
  refine ⟨?_, ?_, entry, fun codes id member target => assembled.closed member,
    fun codes id member other => assembled.step_known codes other member⟩
  · intro id member
    rcases (assembled.members id).mp member with own | ⟨owner, inner, found, inside⟩
    · obtain ⟨declared, here⟩ := Option.ne_none_iff_exists'.mp own
      by_contra installed
      obtain ⟨node, _⟩ := assembled.nested.grown id installed
      exact installed (node.symm.trans (assembled.fresh id declared here))
    · obtain ⟨_, _, held, _⟩ := assembled.nested.each owner inner found
      exact held.fresh id inside
  · intro id member
    rcases (assembled.members id).mp member with own | ⟨owner, inner, found, inside⟩
    · obtain ⟨declared, here⟩ := Option.ne_none_iff_exists'.mp own
      rw [assembled.localNode id declared here]
      simp
    · obtain ⟨_, _, held, _⟩ := assembled.nested.each owner inner found
      rw [assembled.otherNode id (assembled.notLocal found inside)]
      exact held.installed id inside

/-- The accepted scope is acyclic, so every walk from its entry ends. -/
private theorem walk_exists (codes : NodeId → ExitCode)
    (assembled : Assembled graph before middle after prepared nestedScopes partitions scope) :
    ∃ visited ending, Walk.Runs (after.step codes) scope.entry visited ending := by
  obtain ⟨entry, _, finite⟩ := validateScope_valid assembled.valid
  apply Walk.Runs.exists_of_acc
  generalize scope.entry = start at entry finite
  induction finite with
  | intro id _ ih =>
    refine Acc.intro id fun target moves => ?_
    have inside := assembled.closed entry moves
    refine ih target ?_ inside
    unfold DepthFirst.Leads expandScope
    rcases step_inl moves with ⟨node, installed, split⟩ | ⟨single, edges, edge, found, held, leads⟩
    · simp [installed, split, inside]
    · refine ⟨_, by rw [single], ?_⟩
      rw [found]
      exact List.mem_filterMap.mpr ⟨edge, held, by rw [leads]⟩

end Assembled

end Assembled

section Rewriting

private theorem rewriteEdge_pattern (rewrote : rewriteEdge owner exits edge = .ok edge') :
    edge'.pattern = edge.pattern := by
  unfold rewriteEdge at rewrote
  split at rewrote
  · cases rewrote
    rfl
  · split at rewrote
    · cases rewrote
      rfl
    · cases rewrote

/-- Rewriting keeps which edge of a member is selected. -/
private theorem find_rewritten {edges rewritten : List FlowTransition}
    (rewrote : edges.mapM (rewriteEdge owner exits) = .ok rewritten)
    (code : ExitCode) :
    (edges.find? (fun edge => ExitPattern.matches edge.pattern code) = none ∧
        rewritten.find? (fun edge => ExitPattern.matches edge.pattern code) = none) ∨
      ∃ edge edge', edges.find? (fun edge => ExitPattern.matches edge.pattern code) = some edge ∧
        rewriteEdge owner exits edge = .ok edge' ∧
        rewritten.find? (fun edge => ExitPattern.matches edge.pattern code) = some edge' := by
  induction edges generalizing rewritten with
  | nil =>
    cases rewrote
    exact .inl ⟨rfl, rfl⟩
  | cons edge edges ih =>
    rw [List.mapM_cons] at rewrote
    obtain ⟨edge', here, mapping⟩ := bind_eq_ok rewrote
    obtain ⟨rest, mapped, ending⟩ := bind_eq_ok mapping
    cases ending
    rw [List.find?_cons, List.find?_cons, rewriteEdge_pattern here]
    cases ExitPattern.matches edge.pattern code with
    | true => exact .inr ⟨edge, edge', rfl, here, rfl⟩
    | false => exact ih mapped

private theorem resolveEdge_pattern (nestedScopes : NodeMap CompiledFlowScope)
    (edge : FlowTransition) :
    (resolveEdge nestedScopes edge).pattern = edge.pattern := rfl

private theorem find_map_resolveEdge (nestedScopes : NodeMap CompiledFlowScope)
    (edges : List FlowTransition)
    (code : ExitCode) :
    (edges.map (resolveEdge nestedScopes)).find?
        (fun edge => ExitPattern.matches edge.pattern code) =
      (edges.find? fun edge => ExitPattern.matches edge.pattern code).map
        (resolveEdge nestedScopes) := by
  rw [List.find?_map]
  rfl

variable {graph : FlowGraph} {before middle after : AdvancedCompiler} {prepared : PreparedScope}
  {nestedScopes : NodeMap CompiledFlowScope} {partitions : Edges × Edges} {scope : CompiledFlowScope}

namespace Assembled

theorem contains_owner {owner : NodeId} {inner : CompiledFlowScope}
    (found : nestedScopes[owner]? = some inner) : nestedScopes.contains owner = true := by
  rw [ExtTreeMap.contains_eq_isSome_getElem?, found]
  rfl

/-- The exit of an owner for a code, with its target resolved. -/
private theorem find_exit {owner : NodeId} {inner : CompiledFlowScope}
    (assembled : Assembled graph before middle after prepared nestedScopes partitions scope)
    (found : nestedScopes[owner]? = some inner) (code : ExitCode) :
    ((sortTransitions (edgesOf partitions.2 owner)).map (resolveEdge nestedScopes)).find?
        (fun exit => ExitPattern.matches exit.pattern code) =
      (mostSpecific (graph.outgoing owner) code).map (resolveEdge nestedScopes) := by
  have owned := contains_owner found
  rw [find_map_resolveEdge, find_sortTransitions (assembled.apart owner owned),
    assembled.partitioned.exits owner owned, assembled.ready.transitions]
  rfl

/-- How a member of a nested scope steps once its terminal edges are rewritten. -/
def Steps (graph : FlowGraph) (nestedScopes : NodeMap CompiledFlowScope) (owner : NodeId)
    (old new : NodeId ⊕ Ending) : Prop :=
  match old with
  | .inl target => new = .inl target
  | .inr (.failed error) => new = .inr (.failed error)
  | .inr (.terminal kind) => ∃ edge,
      mostSpecific (graph.outgoing owner) (normalizedTerminalCode kind) = some edge ∧
        new = (resolveNestedTarget nestedScopes edge.target).arrive

private theorem member_steps {owner id : NodeId} {inner : CompiledFlowScope}
    (codes : NodeId → ExitCode)
    (assembled : Assembled graph before middle after prepared nestedScopes partitions scope)
    (found : nestedScopes[owner]? = some inner) (member : id ∈ inner.members) :
    Steps graph nestedScopes owner (middle.step codes id) (after.step codes id) := by
  have node := assembled.otherNode id (assembled.notLocal found member)
  have rewritten := assembled.memberEdges owner inner found id member
  cases split : middle.nodes[id]?.bind (·.splitJoin?) with
  | some join =>
    rw [step_split split, step_split (node ▸ split)]
    rfl
  | none =>
    cases held : middle.transitions[id]? with
    | none =>
      rw [held] at rewritten
      rw [step_unknown split held, step_unknown (node ▸ split) rewritten]
      rfl
    | some edges =>
      rw [held] at rewritten
      obtain ⟨edges', rewrote, held'⟩ := rewritten
      rw [step_single split held, step_single (node ▸ split) held']
      rcases find_rewritten rewrote (codes id) with
        ⟨nothing, nothing'⟩ | ⟨edge, edge', selected, changed, selected'⟩
      · rw [nothing, nothing']
        rfl
      · rw [selected, selected']
        unfold rewriteEdge at changed
        cases leads : edge.target with
        | node target =>
          rw [leads] at changed
          cases changed
          dsimp only
          rw [leads]
          rfl
        | terminal kind =>
          rw [leads] at changed
          dsimp only at changed
          rw [assembled.find_exit found] at changed
          cases exits : mostSpecific (graph.outgoing owner) (normalizedTerminalCode kind) with
          | none =>
            rw [exits] at changed
            cases changed
          | some exit =>
            rw [exits] at changed
            cases changed
            dsimp only
            rw [leads]
            exact ⟨exit, exits, rfl⟩

/-- Where the walk enters a declared node or nested owner. -/
def resolve (nestedScopes : NodeMap CompiledFlowScope) (id : NodeId) : NodeId :=
  (nestedScopes[id]?.map (·.entry)).getD id

/-- A declared node that no nested flow owns. -/
structure Single (graph : FlowGraph) (prepared : PreparedScope)
    (nestedScopes : NodeMap CompiledFlowScope) (id : NodeId) (node : FlowNode FlowGraph) : Prop where
  found : prepared.localNodes[id]? = some node
  declared : graph.node? id = some node
  unowned : nestedScopes.contains id = false
  alone : graph.nested? id = none
  entered : resolve nestedScopes id = id

theorem single {id : NodeId} {node : FlowNode FlowGraph}
    (assembled : Assembled graph before middle after prepared nestedScopes partitions scope)
    (found : prepared.localNodes[id]? = some node) : Single graph prepared nestedScopes id node := by
  have noFlow : prepared.nested[id]? = none := by
    cases flow : prepared.nested[id]? with
    | none => rfl
    | some inner =>
      have away := assembled.ready.apart id
        (by rw [ExtTreeMap.contains_eq_isSome_getElem?, flow]; rfl)
      rw [ExtTreeMap.contains_eq_isSome_getElem?, found] at away
      cases away
  have noScope : nestedScopes[id]? = none := by
    cases held : nestedScopes[id]? with
    | none => rfl
    | some inner =>
      obtain ⟨flow, member, _⟩ := assembled.nested.each id inner held
      rw [ExtTreeMap.mem_toList_iff_getElem?_eq_some.mp member] at noFlow
      cases noFlow
  exact
    { found
      declared := (assembled.ready.nodes id).symm.trans found
      unowned := by rw [ExtTreeMap.contains_eq_isSome_getElem?, noScope]; rfl
      alone := (assembled.ready.nested id).symm.trans noFlow
      entered := by simp [resolve, noScope] }

/-- A node or an owner of the scope. -/
def Declared (prepared : PreparedScope) (nestedScopes : NodeMap CompiledFlowScope) (id : NodeId) :
    Prop :=
  prepared.localNodes.contains id = true ∨ nestedScopes.contains id = true

private theorem declared_target {edge : FlowTransition} {target : NodeId}
    (assembled : Assembled graph before middle after prepared nestedScopes partitions scope)
    (member : edge ∈ graph.outgoing source) (leads : edge.target = .node target) :
    Declared prepared nestedScopes target := by
  refine validateTransition_target (assembled.partitioned.valid edge ?_) leads
  rw [assembled.ready.transitions]
  exact List.mem_of_mem_filter member

private theorem declared_entry
    (assembled : Assembled graph before middle after prepared nestedScopes partitions scope) :
    Declared prepared nestedScopes prepared.declaredEntry := by
  rcases assembled.ready.declared with here | nested
  · exact .inl here
  · obtain ⟨inner, found⟩ := Option.isSome_iff_exists.mp
      ((ExtTreeMap.contains_eq_isSome_getElem? ..).symm.trans nested)
    have present := assembled.nested.present _ (ExtTreeMap.mem_toList_iff_getElem?_eq_some.mpr found)
    refine .inr ?_
    rw [ExtTreeMap.contains_eq_isSome_getElem?]
    exact Option.isSome_iff_ne_none.mpr present

private theorem mostSpecific_mem (selected : mostSpecific edges code = some edge) :
    edge ∈ edges := by
  rcases mostSpecific_cases edges code with ⟨nothing, _⟩ | ⟨best, found, wins⟩
  · cases nothing.symm.trans selected
  · cases found.symm.trans selected
    exact List.mem_of_mem_filter wins.mem

/-- How a declared node steps: a split to its join, any other node along its most
specific transition. -/
private theorem single_step {id : NodeId} {node : FlowNode FlowGraph} (codes : NodeId → ExitCode)
    (assembled : Assembled graph before middle after prepared nestedScopes partitions scope)
    (here : Single graph prepared nestedScopes id node) (alone : node.splitJoin? = none) :
    after.step codes id =
      match mostSpecific (graph.outgoing id) (codes id) with
      | none => .inr (.failed (.unmappedExitOutcome id (codes id)))
      | some edge => (resolveNestedTarget nestedScopes edge.target).arrive := by
  have installed := assembled.localNode id node here.found
  have member : id ∈ scope.members :=
    (assembled.members id).mpr (.inl (by rw [here.found]; simp))
  obtain ⟨_, checked, _⟩ := validateScope_valid assembled.valid
  obtain ⟨edges, connected, valid⟩ := validateMember_edges (checked id member) installed alone
  have built := (assembled.localEdges id node here.found).symm.trans connected
  obtain ⟨own, outgoing, sorted⟩ := Option.map_eq_some_iff.mp built
  have same : own = graph.outgoing id := by
    have partition := assembled.partitioned.outgoing id here.unowned
    rw [assembled.ready.transitions, edgesOf, outgoing] at partition
    exact partition
  have apart : ((graph.outgoing id).map (resolveEdge nestedScopes)).Pairwise Apart := by
    rw [← same]
    apply ((sortTransitions_perm _).pairwise_iff (Std.Symm.symm _ _)).mp
    rw [sorted]
    exact valid.apart
  have resolved := mostSpecific_map (resolveEdge_pattern nestedScopes) (graph.outgoing id) (codes id)
  rw [step_single (by rw [installed]; exact alone) connected, ← sorted, same,
    find_sortTransitions apart, resolved]
  cases mostSpecific (graph.outgoing id) (codes id) with
  | none => rfl
  | some edge => rfl

/-- The walk from where an owner is entered: the walk of its nested flow, then on
through the exit that its terminal selects. -/
private theorem owner_interprets {owner : NodeId} {inner : CompiledFlowScope}
    {visited : List NodeId}
    (assembled : Assembled graph before middle after prepared nestedScopes partitions scope)
    (found : nestedScopes[owner]? = some inner)
    (runs : Walk.Runs (after.step codes) inner.entry visited ending)
    (further : ∀ target later, later.length < visited.length →
      Declared prepared nestedScopes target →
      Walk.Runs (after.step codes) (resolve nestedScopes target) later ending →
      Interprets codes graph target (later, ending)) :
    Interprets codes graph owner (visited, ending) := by
  obtain ⟨flow, member, held, faithful⟩ := assembled.nested.each owner inner found
  have owned : graph.nested? owner = some flow :=
    (assembled.ready.nested owner).symm.trans (ExtTreeMap.mem_toList_iff_getElem?_eq_some.mp member)
  obtain ⟨start, inside, last, entry, nestedRuns, interprets⟩ := faithful codes
  have steps : ∀ id ∈ inside,
      Steps graph nestedScopes owner (middle.step codes id) (after.step codes id) :=
    fun id visits => assembled.member_steps codes found (held.contains nestedRuns id visits)
  have moves : ∀ id ∈ inside, ∀ target, middle.step codes id = .inl target →
      after.step codes id = .inl target := by
    intro id visits target moved
    have step := steps id visits
    rw [moved] at step
    exact step
  cases last with
  | failed error =>
    have stays := nestedRuns.redirect moves fun id visits stopped => by
      have step := steps id visits
      rw [stopped] at step
      exact step
    obtain ⟨rfl, rfl⟩ := runs.unique stays
    exact .nestedFailed owned entry interprets
  | terminal kind =>
    obtain ⟨exit, selected⟩ : ∃ exit,
        mostSpecific (graph.outgoing owner) (normalizedTerminalCode kind) = some exit := by
      obtain ⟨id, ends, stopped⟩ := nestedRuns.last
      have step := steps id (List.mem_of_getLast? ends)
      rw [stopped] at step
      obtain ⟨exit, selected, _⟩ := step
      exact ⟨exit, selected⟩
    have leaves : ∀ id ∈ inside, middle.step codes id = .inr (.terminal kind) →
        after.step codes id = (resolveNestedTarget nestedScopes exit.target).arrive := by
      intro id visits stopped
      have step := steps id visits
      rw [stopped] at step
      obtain ⟨exit', selected', same⟩ := step
      cases selected.symm.trans selected'
      exact same
    cases leads : exit.target with
    | terminal kind' =>
      rw [leads] at leaves
      obtain ⟨rfl, rfl⟩ := runs.unique (nestedRuns.redirect moves leaves)
      exact .nestedLeft owned entry interprets (.terminal selected leads)
    | node target =>
      rw [leads] at leaves
      obtain ⟨later, rfl, rest⟩ := nestedRuns.divide moves leaves runs
      refine .nestedLeft owned entry interprets (.move selected leads (further target later ?_
        (assembled.declared_target (mostSpecific_mem selected) leads) rest))
      have nonempty := List.length_pos_iff.mpr nestedRuns.ne_nil
      rw [List.length_append]
      omega

/-- By induction on the length of the walk. -/
theorem interprets {id : NodeId}
    (assembled : Assembled graph before middle after prepared nestedScopes partitions scope)
    (declared : Declared prepared nestedScopes id)
    (runs : Walk.Runs (after.step codes) (resolve nestedScopes id) visited ending) :
    Interprets codes graph id (visited, ending) := by
  induction size : visited.length using Nat.strong_induction_on generalizing id visited with
  | _ length ih =>
    subst size
    cases owner : nestedScopes[id]? with
    | some inner =>
      have entered : resolve nestedScopes id = inner.entry := by simp [resolve, owner]
      rw [entered] at runs
      refine assembled.owner_interprets owner runs fun target later shorter known rest => ?_
      exact ih later.length shorter known rest rfl
    | none =>
      have contained : prepared.localNodes.contains id = true := by
        rcases declared with here | nested
        · exact here
        · rw [ExtTreeMap.contains_eq_isSome_getElem?, owner] at nested
          cases nested
      obtain ⟨node, found⟩ := Option.isSome_iff_exists.mp
        ((ExtTreeMap.contains_eq_isSome_getElem? ..).symm.trans contained)
      have here := assembled.single found
      rw [here.entered] at runs
      cases split : node.splitJoin? with
      | some join =>
        obtain ⟨joined, present, _⟩ := assembled.joins id node join found split
        have moved : after.step codes id = .inl join :=
          step_split (by rw [assembled.localNode id node found]; exact split)
        cases runs with
        | stop stops => cases moved.symm.trans stops
        | move moves rest =>
          cases moved.symm.trans moves
          refine .split here.alone here.declared split (ih _ (by simp) (.inl ?_) ?_ rfl)
          · rw [ExtTreeMap.contains_eq_isSome_getElem?, present]
            rfl
          · rw [(assembled.single present).entered]
            exact rest
      | none =>
        have step := assembled.single_step codes here split
        apply Interprets.single here.alone here.declared split
        cases selected : mostSpecific (graph.outgoing id) (codes id) with
        | none =>
          rw [selected] at step
          obtain ⟨rfl, rfl⟩ := runs.unique (.stop step)
          exact .unmapped selected
        | some edge =>
          rw [selected] at step
          dsimp only at step
          cases leads : edge.target with
          | terminal kind =>
            rw [leads] at step
            obtain ⟨rfl, rfl⟩ := runs.unique (.stop step)
            exact .terminal selected leads
          | node target =>
            rw [leads] at step
            cases runs with
            | stop stops => cases step.symm.trans stops
            | move moves rest =>
              cases step.symm.trans moves
              refine .move selected leads (ih _ (by simp) ?_ rest rfl)
              exact assembled.declared_target (mostSpecific_mem selected) leads

theorem faithful
    (assembled : Assembled graph before middle after prepared nestedScopes partitions scope) :
    Faithful after graph scope := by
  intro codes
  obtain ⟨visited, ending, runs⟩ := assembled.walk_exists codes
  refine ⟨prepared.declaredEntry, visited, ending, assembled.ready.entry, runs, ?_⟩
  rw [assembled.entry] at runs
  exact assembled.interprets assembled.declared_entry runs

end Assembled

end Rewriting

section Compile

private theorem compileScopeWith_compiles {descend : FlowGraph → CompilerM CompiledFlowScope}
    (compiles : Compiles descend) : Compiles (compileScopeWith descend) := by
  intro graph before scope after grounded yields
  obtain ⟨_, _, middle, _, _, prepared, nestedScopes, partitions, _, stages⟩ :=
    compileScopeWith_stages yields
  have assembled := stages.assembled compiles grounded
  exact ⟨assembled.grounded, assembled.extended, assembled.isSealed, assembled.faithful⟩

theorem compileScope_compiles (levels : Nat) : Compiles (compileScope levels) := by
  induction levels with
  | zero =>
    intro graph before scope after _ yields
    cases yields
  | succ levels ih => exact compileScopeWith_compiles ih

/-- A walk that stops at a member of a sealed scope without a terminal has met an
exit code that no transition of its last node maps. -/
theorem Sealed.ending_cases {before after : AdvancedCompiler} (held : Sealed before after scope)
    (runs : Walk.Runs (after.step codes) scope.entry visited ending) :
    (∃ kind, ending = .terminal kind) ∨ ∃ id, visited.getLast? = some id ∧
      ending = .failed (.unmappedExitOutcome id (codes id)) := by
  obtain ⟨id, last, stops⟩ := runs.last
  have member := held.contains runs id (List.mem_of_getLast? last)
  have known := held.known codes id member
  cases split : after.nodes[id]?.bind (·.splitJoin?) with
  | some join =>
    rw [step_split split] at stops
    cases stops
  | none =>
    cases found : after.transitions[id]? with
    | none => exact False.elim (known id (step_unknown split found))
    | some edges =>
      rw [step_single split found] at stops
      cases selected : edges.find? fun edge => ExitPattern.matches edge.pattern (codes id) with
      | none =>
        rw [selected] at stops
        cases stops
        exact .inr ⟨id, last, rfl⟩
      | some edge =>
        rw [selected] at stops
        dsimp only at stops
        cases leads : edge.target with
        | node target =>
          rw [leads] at stops
          cases stops
        | terminal kind =>
          rw [leads] at stops
          cases stops
          exact .inl ⟨kind, rfl⟩

/-- Walking the flattened plan is walking the declared flow: with enough fuel both
visit the same executable nodes and end in the same terminal, or at the same node
whose exit code is unmapped. -/
theorem compile_preserves_walks
    (identify : AdvancedCompiler → CompiledFlowScope → Option ParameterIncrementerIdentity →
      Except PlanError Definition)
    (graph : FlowGraph) (plan : CompiledExecutionPlan Definition)
    (compiled : compile identify graph = .ok plan) (codes : NodeId → ExitCode) :
    ∃ visited ending bound,
      ((∃ kind, ending = .terminal kind) ∨ ∃ id, visited.getLast? = some id ∧
        ending = .failed (.unmappedExitOutcome id (codes id))) ∧
      ∀ fuel, bound ≤ fuel → plan.walk codes fuel = some (visited, ending) ∧
        graph.interpret codes fuel = some (visited, ending) := by
  obtain ⟨⟨scope, compiler⟩, built, identifying⟩ := bind_eq_ok compiled
  obtain ⟨definition, _, ending⟩ := bind_eq_ok identifying
  cases ending
  have grounded : Grounded .default := fun _ _ => by simp [AdvancedCompiler.default]
  obtain ⟨_, _, held, faithful⟩ := compileScope_compiles _ graph _ scope compiler grounded built
  obtain ⟨start, visited, last, entry, runs, bound, interprets⟩ := faithful codes
  refine ⟨visited, last, max visited.length bound, held.ending_cases runs, fun fuel enough => ?_⟩
  refine ⟨runs.follow (le_trans (le_max_left _ _) enough), ?_⟩
  rw [FlowGraph.interpret, entry]
  exact interprets fuel (le_trans (le_max_right _ _) enough)

/-- A tasklet step with default controls. -/
def plainStep (id : NodeId) : FlowNode FlowGraph :=
  .step
    { id, stepName := id, components := .tasklet ⟨"v1", Eq.refl true⟩,
      start := ⟨StartLimit.unrestricted, false, .restartable⟩,
      fault := none, listeners := [], repeatDefinition := none }

/-- A review inside a load: its failure stops the job, its completion publishes. -/
def reviewFlow : FlowGraph :=
  let load : NodeId := ⟨"load", Eq.refl true⟩
  let review : NodeId := ⟨"review", Eq.refl true⟩
  let check : NodeId := ⟨"check", Eq.refl true⟩
  let publish : NodeId := ⟨"publish", Eq.refl true⟩
  let any : ExitPattern := ⟨"*", Eq.refl true⟩
  let completed : ExitPattern := ⟨"COMPLETED", Eq.refl true⟩
  { entry := some load
    nodes := [plainStep load, plainStep publish]
    transitions := [⟨load, any, .node review⟩, ⟨review, any, .terminal .stop⟩,
      ⟨review, completed, .node publish⟩, ⟨publish, any, .terminal .complete⟩]
    nestedFlows := [⟨review,
      { entry := some check
        nodes := [plainStep check]
        transitions := [⟨check, any, .terminal .fail⟩, ⟨check, completed, .terminal .complete⟩]
        nestedFlows := []
        scopedComponents := []
        parameterIncrementer := none
        jobRestartPolicy := .restartable }⟩]
    scopedComponents := []
    parameterIncrementer := none
    jobRestartPolicy := .restartable }

private theorem reviewFlow_compiles :
    (compile (fun _ _ _ => .ok ()) reviewFlow).isOk = true := by
  decide +kernel

theorem compile_preserves_walks_reviewFlow :
    ∃ plan, compile (fun _ _ _ => .ok ()) reviewFlow = .ok plan ∧
      ∃ visited ending bound,
        ((∃ kind, ending = .terminal kind) ∨ ∃ id, visited.getLast? = some id ∧
          ending = .failed (.unmappedExitOutcome id ⟨"COMPLETED", by decide⟩)) ∧
        ∀ fuel, bound ≤ fuel →
          plan.walk (fun _ => ⟨"COMPLETED", by decide⟩) fuel = some (visited, ending) ∧
          reviewFlow.interpret (fun _ => ⟨"COMPLETED", by decide⟩) fuel = some (visited, ending) := by
  cases compiled : compile (fun _ _ _ => .ok ()) reviewFlow with
  | error failure =>
    have accepted := reviewFlow_compiles
    rw [compiled] at accepted
    cases accepted
  | ok plan => exact ⟨plan, rfl, compile_preserves_walks _ reviewFlow plan compiled _⟩

end Compile

end OxideBatch.Plan
