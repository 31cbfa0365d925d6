import OxideBatch.Plan.Flatten
import OxideBatch.Plan.Base

/-! The routes of a compiled scope: where its nodes lead, that they stay inside, are
reached from the entry, and come back to no node. -/

namespace OxideBatch.Plan

open OxideBatch.Core Program Relation
open Std (ExtTreeMap ExtTreeSet)

section Follows

variable (nodes : NodeMap (FlowNode FlowGraph)) (transitions : Edges)

/-- `split` is a split that moves to `join`. -/
def Splits (split join : NodeId) : Prop := nodes[split]?.bind (·.splitJoin?) = some join

def IsJoin (id : NodeId) : Prop := nodes[id]?.any (·.isJoin) = true

/-- One move: from a split to its join, or along a transition. -/
def Follows (source target : NodeId) : Prop :=
  Splits nodes source target ∨ ∃ edge ∈ edgesOf transitions source, edge.target = .node target

/-- A scope whose nodes are compiled, reached from its entry, and left only through
terminals; nothing in it repeats, and each join belongs to one split. -/
structure ScopeSound (scope : CompiledFlowScope) : Prop where
  entry : scope.entry ∈ scope.members
  installed : ∀ id ∈ scope.members, nodes[id]? ≠ none
  closed : ∀ source ∈ scope.members, ∀ target, Follows nodes transitions source target →
    target ∈ scope.members
  reached : ∀ id ∈ scope.members, ReflTransGen (Follows nodes transitions) scope.entry id
  finite : Acc (fun target source => Follows nodes transitions source target) scope.entry
  bare : ∀ split ∈ scope.members, ∀ join, Splits nodes split join → edgesOf transitions split = []
  joined : ∀ split ∈ scope.members, ∀ join, Splits nodes split join → IsJoin nodes join
  owned : ∀ join ∈ scope.members, IsJoin nodes join → ∃ split ∈ scope.members,
    Splits nodes split join ∧ ∀ other ∈ scope.members, Splits nodes other join → other = split
  entered : ∀ source ∈ scope.members, ∀ edge ∈ edgesOf transitions source, ∀ target,
    edge.target = .node target → ¬ IsJoin nodes target

end Follows

section Sound

variable {nodes nodes' : NodeMap (FlowNode FlowGraph)} {transitions transitions' : Edges}
  {scope : CompiledFlowScope}

/-- The entry of a scope is no join: its split would lead back to it. -/
theorem ScopeSound.entry_not_join (sound : ScopeSound nodes transitions scope) :
    ¬ IsJoin nodes scope.entry := by
  intro joins
  obtain ⟨split, member, splits, _⟩ := sound.owned scope.entry sound.entry joins
  apply DepthFirst.not_transGen_self sound.finite
  exact TransGen.tail' (sound.reached split member) (.inl splits)

private theorem follows_congr {source target : NodeId} (node : nodes'[source]? = nodes[source]?)
    (edges : edgesOf transitions' source = edgesOf transitions source) :
    Follows nodes' transitions' source target ↔ Follows nodes transitions source target := by
  simp only [Follows, Splits, node, edges]

/-- A scope stays sound while its members keep their declaration and their edges. -/
theorem ScopeSound.transport (sound : ScopeSound nodes transitions scope)
    (node : ∀ id ∈ scope.members, nodes'[id]? = nodes[id]?)
    (edges : ∀ id ∈ scope.members, edgesOf transitions' id = edgesOf transitions id) :
    ScopeSound nodes' transitions' scope := by
  have same : ∀ source ∈ scope.members, ∀ target,
      Follows nodes' transitions' source target ↔ Follows nodes transitions source target :=
    fun source member target => follows_congr (node source member) (edges source member)
  have splits : ∀ id ∈ scope.members, ∀ join, Splits nodes' id join ↔ Splits nodes id join := by
    intro id member join
    rw [Splits, node id member]
    exact Iff.rfl
  have joins : ∀ id ∈ scope.members, IsJoin nodes' id ↔ IsJoin nodes id := by
    intro id member
    rw [IsJoin, node id member]
    exact Iff.rfl
  have inside : ∀ split ∈ scope.members, ∀ join, Splits nodes split join → join ∈ scope.members :=
    fun split member join moves => sound.closed split member join (.inl moves)
  refine ⟨sound.entry, ?_, ?_, ?_, ?_, ?_, ?_, ?_, ?_⟩
  · intro id member
    rw [node id member]
    exact sound.installed id member
  · intro source member target moves
    exact sound.closed source member target ((same source member target).mp moves)
  · intro id member
    have walk := sound.reached id member
    -- along the walk: every node on it is a member
    have kept : ∀ other, ReflTransGen (Follows nodes transitions) scope.entry other →
        other ∈ scope.members ∧ ReflTransGen (Follows nodes' transitions') scope.entry other := by
      intro other reaches
      induction reaches with
      | refl => exact ⟨sound.entry, .refl⟩
      | tail _ moves ih =>
        obtain ⟨here, walked⟩ := ih
        exact ⟨sound.closed _ here _ moves, walked.tail ((same _ here _).mpr moves)⟩
    exact (kept id walk).2
  · have finite := sound.finite
    have here := sound.entry
    generalize scope.entry = start at finite here
    induction finite with
    | intro id _ ih =>
      refine Acc.intro id fun target moves => ?_
      have old := (same id here target).mp moves
      exact ih target old (sound.closed id here target old)
  · intro split member join moves
    rw [edges split member]
    exact sound.bare split member join ((splits split member join).mp moves)
  · intro split member join moves
    have old := (splits split member join).mp moves
    exact (joins join (inside split member join old)).mpr (sound.joined split member join old)
  · intro join member isJoin
    obtain ⟨split, here, moves, only⟩ := sound.owned join member ((joins join member).mp isJoin)
    refine ⟨split, here, (splits split here join).mpr moves, ?_⟩
    intro other inside moves'
    exact only other inside ((splits other inside join).mp moves')
  · intro source member edge held target leads isJoin
    rw [edges source member] at held
    have targetInside := sound.closed source member target (.inr ⟨edge, held, leads⟩)
    exact sound.entered source member edge held target leads ((joins target targetInside).mp isJoin)

theorem ScopeSound.later {before after : AdvancedCompiler}
    (sound : ScopeSound before.nodes before.transitions scope) (grown : Extends before after) :
    ScopeSound after.nodes after.transitions scope := by
  apply sound.transport
  · intro id member
    exact (grown id (sound.installed id member)).1
  · intro id member
    rw [edgesOf, edgesOf, (grown id (sound.installed id member)).2]

end Sound

section Validated

variable {compiler : AdvancedCompiler} {entry : NodeId} {members : ExtTreeSet NodeId}

private theorem follows_of_leads {source target : NodeId}
    (leads : DepthFirst.Leads (expandScope compiler members) target source) :
    Follows compiler.nodes compiler.transitions source target := by
  obtain ⟨targets, expanded, member⟩ := leads
  unfold expandScope at expanded
  dsimp only at expanded
  split at expanded
  · rename_i join splits
    split at expanded
    · cases expanded
      rcases List.mem_cons.mp member with rfl | later
      · exact .inl splits
      · obtain ⟨edge, held, same⟩ := List.mem_filterMap.mp later
        refine .inr ⟨edge, held, ?_⟩
        split at same
        · rename_i leads
          cases same
          exact leads
        · cases same
    · cases expanded
  · cases expanded
    obtain ⟨edge, held, same⟩ := List.mem_filterMap.mp member
    refine .inr ⟨edge, held, ?_⟩
    split at same
    · rename_i leads
      cases same
      exact leads
    · cases same

private theorem leads_of_follows {source target : NodeId}
    (inside : ∀ join, Splits compiler.nodes source join → join ∈ members)
    (follows : Follows compiler.nodes compiler.transitions source target) :
    DepthFirst.Leads (expandScope compiler members) target source := by
  have edgeTarget : (∃ edge ∈ edgesOf compiler.transitions source, edge.target = .node target) →
      ∀ pick : FlowTransition → Option NodeId,
        (∀ edge, edge.target = .node target → pick edge = some target) →
        target ∈ (compiler.transitions[source]?.getD []).filterMap pick := by
    rintro ⟨edge, held, leads⟩ pick picks
    exact List.mem_filterMap.mpr ⟨edge, held, picks edge leads⟩
  unfold DepthFirst.Leads expandScope
  dsimp only
  cases split : compiler.nodes[source]?.bind (·.splitJoin?) with
  | none =>
    refine ⟨_, rfl, ?_⟩
    rcases follows with splits | edges
    · rw [Splits, split] at splits
      cases splits
    · exact edgeTarget edges _ fun edge leads => by rw [leads]
  | some join =>
    have held : members.contains join = true := by simpa using inside join split
    simp only [held, if_true]
    refine ⟨_, rfl, ?_⟩
    rcases follows with splits | edges
    · rw [Splits, split] at splits
      cases splits
      exact List.mem_cons_self
    · exact List.mem_cons_of_mem _ (edgeTarget edges _ fun edge leads => by rw [leads])

/-- What `validate_scope` establishes of a scope whose splits have their joins inside
and no edges of their own. -/
theorem validateScope_routes (valid : validateScope compiler entry members = .ok ())
    (inside : ∀ split ∈ members, ∀ join, Splits compiler.nodes split join → join ∈ members)
    (bare : ∀ split ∈ members, ∀ join, Splits compiler.nodes split join →
      edgesOf compiler.transitions split = []) :
    (∀ id ∈ members, compiler.nodes[id]? ≠ none) ∧
      (∀ source ∈ members, ∀ target, Follows compiler.nodes compiler.transitions source target →
        target ∈ members) ∧
      (∀ id ∈ members, ReflTransGen (Follows compiler.nodes compiler.transitions) entry id) ∧
      Acc (fun target source => Follows compiler.nodes compiler.transitions source target) entry := by
  obtain ⟨start, checked, finite⟩ := validateScope_valid valid
  have installed : ∀ id ∈ members, compiler.nodes[id]? ≠ none := by
    intro id member absent
    have accepted := checked id member
    unfold validateMember validateMemberUnder at accepted
    rw [absent] at accepted
    cases accepted
  have closed : ∀ source ∈ members, ∀ target,
      Follows compiler.nodes compiler.transitions source target → target ∈ members := by
    intro source member target moves
    rcases moves with splits | ⟨edge, held, leads⟩
    · exact inside source member target splits
    · obtain ⟨node, found⟩ := Option.ne_none_iff_exists'.mp (installed source member)
      cases split : node.splitJoin? with
      | some join =>
        rw [bare source member join (by rw [Splits, found]; exact split)] at held
        cases held
      | none =>
        obtain ⟨edges, present, accepted⟩ := validateMember_edges (checked source member) found split
        rw [edgesOf, present] at held
        exact accepted.inside edge held target leads
  refine ⟨installed, closed, ?_, ?_⟩
  · intro id member
    unfold validateScope validateScopeUnder at valid
    split at valid
    · cases valid
    · obtain ⟨_, _, searching⟩ := bind_eq_ok valid
      obtain ⟨visited, searched, ending⟩ := bind_eq_ok searching
      split at ending
      · cases ending
      · rename_i all
        have seen : id ∈ visited := by
          have missed := List.find?_eq_none.mp all id (by simpa using member)
          simpa using missed
        apply ReflTransGen.mono ?_ _ _ (DepthFirst.reached_of_visit searched id seen)
        exact fun _ _ leads => follows_of_leads leads
  · clear valid
    induction finite with
    | intro id _ ih =>
      refine Acc.intro id fun target moves => ?_
      exact ih target (leads_of_follows (inside id start) moves) (closed id start target moves)

end Validated

end OxideBatch.Plan
