import OxideBatch.Plan.WellRouted
import OxideBatch.Plan.SimilarEdges

/-! First-match selection at a compiled node is selection of the one most specific match:
both compilers sort the edges, both check them, and no rewriting touches a pattern. -/

namespace OxideBatch.Plan

open OxideBatch.Core Program
open Std (ExtTreeMap ExtTreeSet)

section Order

variable {edges edges' : List FlowTransition}

/-- The edges stand from the most specific pattern to the least specific one. -/
def Descending (edges : List FlowTransition) : Prop :=
  edges.Pairwise fun left right =>
    ExitPattern.specificity right.pattern ≤ ExitPattern.specificity left.pattern

/-- The edges have the patterns of the other edges, in their order. -/
def SamePatterns (edges edges' : List FlowTransition) : Prop :=
  edges'.map (·.pattern) = edges.map (·.pattern)

/-- What the patterns of a list satisfy pairwise, the same patterns satisfy. -/
theorem SamePatterns.pairwise {related : ExitPattern → ExitPattern → Prop}
    (same : SamePatterns edges edges')
    (held : edges.Pairwise fun left right => related left.pattern right.pattern) :
    edges'.Pairwise fun left right => related left.pattern right.pattern := by
  have onPatterns : (edges.map (·.pattern)).Pairwise related := List.pairwise_map.mpr held
  rw [← same] at onPatterns
  exact List.pairwise_map.mp onPatterns

theorem SamePatterns.descending (same : SamePatterns edges edges') (ordered : Descending edges) :
    Descending edges' :=
  @SamePatterns.pairwise _ _ (fun left right =>
    ExitPattern.specificity right ≤ ExitPattern.specificity left) same ordered

theorem SamePatterns.apart (same : SamePatterns edges edges') (apart : edges.Pairwise Apart) :
    edges'.Pairwise Apart :=
  @SamePatterns.pairwise _ _ (fun left right => ∀ code,
    ExitPattern.specificity left = ExitPattern.specificity right →
    ExitPattern.matches left code = true → ExitPattern.matches right code = true → False) same apart

theorem samePatterns_resolved (nestedScopes : NodeMap CompiledFlowScope)
    (edges : List FlowTransition) : SamePatterns edges (edges.map (resolveEdge nestedScopes)) := by
  unfold SamePatterns
  rw [List.map_map]
  rfl

private theorem samePatterns_rewritten {owner : NodeId} {exits : List FlowTransition}
    (done : edges.mapM (rewriteEdge owner exits) = .ok edges') : SamePatterns edges edges' := by
  have answers := mapM_ok done
  unfold SamePatterns
  clear done
  induction answers with
  | nil => rfl
  | @cons edge rewritten _ _ here _ ih =>
    rw [List.map_cons, List.map_cons, ih]
    congr 1
    unfold rewriteEdge at here
    split at here
    · cases here
      rfl
    · split at here
      · cases here
        rfl
      · cases here

end Order

section Choice

/-- The transitions of a node that match an exit code. -/
def matching (edges : List FlowTransition) (code : ExitCode) : List FlowTransition :=
  edges.filter fun edge => ExitPattern.matches edge.pattern code

variable {edges : List FlowTransition} {code : ExitCode}

theorem Best.matched (best : Best (matching edges code) edge) :
    ExitPattern.matches edge.pattern code = true :=
  (List.mem_filter.mp best.mem).2

/-- Two transitions that both prevail are equally specific. -/
theorem Best.equal {candidates : List FlowTransition} (left : Best candidates first)
    (right : Best candidates second) :
    ExitPattern.specificity first.pattern = ExitPattern.specificity second.pattern :=
  le_antisymm (right.le first left.mem) (left.le second right.mem)

/-- No two places of the list hold a transition that prevails. -/
private theorem best_single (apart : edges.Pairwise Apart) {place place' : Nat}
    (here : edges[place]? = some first) (there : edges[place']? = some second)
    (left : Best (matching edges code) first) (right : Best (matching edges code) second) :
    place = place' := by
  obtain ⟨inside, rfl⟩ := List.getElem?_eq_some_iff.mp here
  obtain ⟨inside', rfl⟩ := List.getElem?_eq_some_iff.mp there
  have ordered := List.pairwise_iff_getElem.mp apart
  rcases lt_trichotomy place place' with before | same | behind
  · exact False.elim
      (ordered place place' inside inside' before code (left.equal right) left.matched right.matched)
  · exact same
  · exact False.elim
      (ordered place' place inside' inside behind code (right.equal left) right.matched left.matched)

/-- The first match among ordered edges is the one that prevails. -/
private theorem find_best (ordered : Descending edges) (apart : edges.Pairwise Apart)
    (best : Best (matching edges code) edge) :
    edges.find? (fun edge => ExitPattern.matches edge.pattern code) = some edge := by
  obtain ⟨member, matched⟩ := List.mem_filter.mp best.mem
  cases found : edges.find? fun edge => ExitPattern.matches edge.pattern code with
  | none => exact absurd matched (List.find?_eq_none.mp found edge member)
  | some first =>
    obtain ⟨firstMatched, front, back, split, unmatched⟩ := List.find?_eq_some_iff_append.mp found
    subst split
    rcases List.mem_append.mp member with early | here
    · have refused := unmatched edge early
      simp [matched] at refused
    · rcases List.mem_cons.mp here with same | late
      · rw [same]
      · -- a later match is at most as specific, and the first one no more than the best
        have below := List.rel_of_pairwise_cons (List.pairwise_append.mp ordered).2.1 late
        have above := best.le first (List.mem_filter.mpr ⟨by simp, firstMatched⟩)
        have separate := List.rel_of_pairwise_cons (List.pairwise_append.mp apart).2.1 late
        exact False.elim (separate code (le_antisymm above below) firstMatched matched)

end Choice

section Selective

/-- Every node's edges are ordered, and no two of a node that is no split are ambiguous. -/
structure Selective (nodes : NodeMap (FlowNode FlowGraph)) (transitions : Edges) : Prop where
  ordered : ∀ (id : NodeId) edges, transitions[id]? = some edges → Descending edges
  apart : ∀ (id : NodeId) node, nodes[id]? = some node → node.splitJoin? = none →
    ∃ edges, transitions[id]? = some edges ∧ edges.Pairwise Apart

/-- A part of the compilation after which selection still is unambiguous. -/
def KeepsSelective (before after : AdvancedCompiler) : Prop :=
  Selective before.nodes before.transitions → Selective after.nodes after.transitions

theorem KeepsSelective.refl (compiler : AdvancedCompiler) : KeepsSelective compiler compiler :=
  fun selective => selective

theorem KeepsSelective.trans {first second third : AdvancedCompiler}
    (left : KeepsSelective first second) (right : KeepsSelective second third) :
    KeepsSelective first third := fun selective => right (left selective)

theorem SameGraph.keepsSelective {before after : AdvancedCompiler} (same : SameGraph before after) :
    KeepsSelective before after := by
  intro selective
  rw [same.1, same.2]
  exact selective

private theorem quiet_keepsSelective {program : CompilerM α} (quiet : Keeps Quiet program) :
    Keeps KeepsSelective program :=
  fun before value after done => (quiet before value after done).same.keepsSelective

private theorem modify_keepsSelective {change : AdvancedCompiler → AdvancedCompiler}
    (same : ∀ compiler, SameGraph compiler (change compiler)) :
    Keeps KeepsSelective (modify change : CompilerM PUnit) :=
  Keeps.modify fun compiler => (same compiler).keepsSelective

theorem Selective.insert {nodes : NodeMap (FlowNode FlowGraph)} {transitions : Edges}
    {source : NodeId} {edges edges' : List FlowTransition}
    (selective : Selective nodes transitions) (found : transitions[source]? = some edges)
    (same : SamePatterns edges edges') : Selective nodes (transitions.insert source edges') := by
  constructor
  · intro id listed present
    rcases Tables.lookup_insert_cases present with ⟨rfl, rfl⟩ | ⟨_, before⟩
    · exact same.descending (selective.ordered _ edges found)
    · exact selective.ordered id listed before
  · intro id node installed single
    obtain ⟨listed, present, apart⟩ := selective.apart id node installed single
    by_cases here : source = id
    · subst here
      rw [found] at present
      cases present
      exact ⟨edges', getElem?_insert_self _ _ _, same.apart apart⟩
    · exact ⟨listed, (getElem?_insert_ne here).trans present, apart⟩

private theorem rewriteNestedTerminals_selective {nodes : NodeMap (FlowNode FlowGraph)}
    {owner : NodeId}
    {scope : CompiledFlowScope} {exits : List FlowTransition} {edges edges' : Edges}
    (selective : Selective nodes edges)
    (done : rewriteNestedTerminals owner scope exits edges = .ok edges') :
    Selective nodes edges' := by
  refine foldlM_ok ?_ selective done
  intro held source next kept stepped
  split at stepped
  · cases stepped
    exact kept
  · rename_i listed found
    obtain ⟨rewritten, mapped, ending⟩ := bind_eq_ok stepped
    cases ending
    exact kept.insert found (samePatterns_rewritten mapped)

private theorem keepsSelective_normalizeNestedBoundary (nestedScopes : NodeMap CompiledFlowScope)
    (nestedExits : Edges) (owner : NodeId) (scope : CompiledFlowScope) :
    Keeps KeepsSelective (normalizeNestedBoundary nestedScopes nestedExits owner scope) := by
  intro before value after done selective
  unfold normalizeNestedBoundary at done
  cases exits : nestedExits[owner]? with
  | none =>
    rw [exits] at done
    cases done
  | some listed =>
    rw [exits] at done
    obtain ⟨_, _, got, rewriting⟩ := yields_bind done
    cases got
    obtain ⟨transitions, _, lifted, ending⟩ := yields_bind rewriting
    obtain ⟨rewritten, rfl⟩ := yields_lift lifted
    cases ending
    exact rewriteNestedTerminals_selective selective rewritten

end Selective

section Scopes

variable {compile : FlowGraph → CompilerM CompiledFlowScope}

private theorem keepsSelective_materializeBranch
    (inner : ∀ graph, Keeps KeepsSelective (compile graph))
    (id : NodeId) (ordinal : Nat) (branch : SplitBranch FlowGraph) :
    Keeps KeepsSelective (materializeBranch compile id ordinal branch) := by
  refine Keeps.bind KeepsSelective.trans (modify_keepsSelective fun _ => ⟨rfl, rfl⟩) fun _ => ?_
  refine Keeps.bind KeepsSelective.trans
    (quiet_keepsSelective quiet_checkMaterializedNodes) fun _ => ?_
  split
  · refine Keeps.bind KeepsSelective.trans (inner _) fun scope => ?_
    exact modify_keepsSelective fun _ => ⟨rfl, rfl⟩
  · split
    · exact Keeps.throw _
    · exact Keeps.forM KeepsSelective.refl KeepsSelective.trans
        (fun step : StepNode => quiet_keepsSelective (quiet_reserveId step.id)) _

private theorem keepsSelective_materializeNode
    (inner : ∀ graph, Keeps KeepsSelective (compile graph))
    (declaredEntry : NodeId) (localNodes : NodeMap (FlowNode FlowGraph))
    (joinOwners : NodeMap NodeId) (entry : NodeId × FlowNode FlowGraph) :
    Keeps KeepsSelective (materializeNode compile declaredEntry localNodes joinOwners entry) := by
  unfold materializeNode
  split
  · intro before owners after done
    obtain ⟨_, _, materialized⟩ := materializeSplit_yields done
    exact Keeps.forM KeepsSelective.refl KeepsSelective.trans
      (fun branch => keepsSelective_materializeBranch inner _ _ _) _ _ _ _ materialized
  · refine Keeps.bind KeepsSelective.trans (quiet_keepsSelective (quiet_reserveId _)) fun _ => ?_
    exact Keeps.pure KeepsSelective.refl _
  · exact Keeps.pure KeepsSelective.refl _

private theorem keepsSelective_materializeLocalStructure
    (inner : ∀ graph, Keeps KeepsSelective (compile graph)) (declaredEntry : NodeId)
    (localNodes : NodeMap (FlowNode FlowGraph)) :
    Keeps KeepsSelective (materializeLocalStructure compile declaredEntry localNodes) := by
  intro before value after done
  obtain ⟨owners, folded, _⟩ := materializeLocalStructure_yields done
  exact Keeps.foldlM KeepsSelective.refl KeepsSelective.trans
    (fun owners entry => keepsSelective_materializeNode inner _ _ owners entry) _ _ _ _ _ folded

private theorem keepsSelective_compileNestedScopes
    (inner : ∀ graph, Keeps KeepsSelective (compile graph))
    (nested : NodeMap FlowGraph) : Keeps KeepsSelective (compileNestedScopes compile nested) := by
  refine Keeps.foldlM KeepsSelective.refl KeepsSelective.trans (fun scopes flow => ?_) _ _
  refine Keeps.bind KeepsSelective.trans (inner flow.2) fun scope => ?_
  exact Keeps.pure KeepsSelective.refl _

theorem Stages.member {descend : FlowGraph → CompilerM CompiledFlowScope}
    {before first second middle third fourth after : AdvancedCompiler} {id : NodeId}
    (stages : Stages descend graph before first second middle third fourth after prepared
      nestedScopes partitions nestedExits scope)
    (declared : prepared.localNodes[id]? = some node) :
    validateMember after scope.members id = .ok () := by
  apply (validateScope_valid stages.valid).2.1
  rw [stages.members, mem_foldl_union, ExtTreeSet.mem_ofList, List.contains_iff_mem,
    ExtTreeMap.mem_keys, ExtTreeMap.mem_iff_isSome_getElem?, declared]
  exact .inl rfl

/-- A node whose edges a scope installs is a node of the scope. -/
theorem Partitioned.declared {id : NodeId}
    (partitioned : Partitioned localNodes nestedScopes transitions partitions)
    (present : partitions.1[id]? = some edges) : ∃ node, localNodes[id]? = some node := by
  have contained : partitions.1.contains id = true := by
    rw [ExtTreeMap.contains_eq_isSome_getElem?, present]
    rfl
  have owned := partitioned.owned id contained
  rw [ExtTreeMap.contains_eq_isSome_getElem?] at owned
  exact Option.isSome_iff_exists.mp owned

/-- The scope's own nodes bring sorted edges that its check has passed. -/
theorem Stages.selective {descend : FlowGraph → CompilerM CompiledFlowScope}
    {before first second middle third fourth after : AdvancedCompiler}
    (stages : Stages descend graph before first second middle third fourth after prepared
      nestedScopes partitions nestedExits scope) : KeepsSelective third after := by
  intro selective
  have installed := install_installed stages.installing stages.connecting
  have partitioned := partitionTransitions_partitioned stages.partitioning
  constructor
  · intro id edges present
    cases own : partitions.1[id]? with
    | none =>
      exact selective.ordered id edges
        ((installed.otherEdges id (by simp [own])).symm.trans present)
    | some declared =>
      have sorted := installed.edges id (declared.map (resolveEdge nestedScopes)) (by simp [own])
      obtain rfl := Option.some.inj (sorted.symm.trans present)
      exact sortTransitions_descending _
  · intro id node found single
    cases declared : prepared.localNodes[id]? with
    | some _ =>
      obtain ⟨edges, present, valid⟩ := validateMember_edges (stages.member declared) found single
      exact ⟨edges, present, valid.apart⟩
    | none =>
      have unowned : partitions.1[id]? = none := by
        cases own : partitions.1[id]? with
        | none => rfl
        | some edges =>
          obtain ⟨other, held⟩ := partitioned.declared own
          cases declared.symm.trans held
      rw [installed.otherNode id declared] at found
      obtain ⟨edges, present, apart⟩ := selective.apart id node found single
      exact ⟨edges, (installed.otherEdges id (by simp [unowned])).trans present, apart⟩

private theorem keepsSelective_compileScope (levels : Nat) :
    ∀ graph, Keeps KeepsSelective (compileScope levels graph) := by
  induction levels with
  | zero => exact fun graph => Keeps.throw _
  | succ levels inner =>
    intro graph before scope after done
    obtain ⟨first, second, middle, third, fourth, prepared, nestedScopes, partitions, nestedExits,
      stages⟩ := compileScopeWith_stages done
    obtain ⟨_, quiet, _⟩ := prepareScope_prepared stages.preparing
    have nested := keepsSelective_compileNestedScopes inner _ _ _ _ stages.nesting
    have structured := keepsSelective_materializeLocalStructure inner _ _ _ _ _ stages.materializing
    have bordered := Keeps.forM KeepsSelective.refl KeepsSelective.trans
      (fun entry : NodeId × CompiledFlowScope =>
        keepsSelective_normalizeNestedBoundary nestedScopes nestedExits entry.1 entry.2)
      _ _ _ _ stages.normalizing
    exact quiet.same.keepsSelective.trans (nested.trans (structured.trans (bordered.trans
      stages.selective)))

end Scopes

section Plans

theorem BaseStages.selective (stages : BaseStages serde jobName revision graph entry nodes localScale
      outgoing definition) :
    Selective nodes (outgoing.map fun _ edges => sortTransitions edges) := by
  constructor
  · intro id edges present
    rw [ExtTreeMap.getElem?_map] at present
    obtain ⟨declared, _, rfl⟩ := Option.map_eq_some_iff.mp present
    exact sortTransitions_descending declared
  · intro id node found single
    have checked := forM_eq_ok stages.checked (id, node)
      (ExtTreeMap.mem_toList_iff_getElem?_eq_some.mpr found)
    simp only [checkOutgoing, checkOutgoingUnder, single, Option.isSome_none, Bool.false_eq_true,
      if_false] at checked
    cases declared : outgoing[id]? with
    | none =>
      rw [declared] at checked
      cases checked
    | some edges =>
      rw [declared, Option.getD_some] at checked
      refine ⟨sortTransitions edges, by rw [ExtTreeMap.getElem?_map, declared]; rfl, ?_⟩
      apply ((sortTransitions_perm edges).pairwise_iff (Std.Symm.symm _ _)).mpr
      cases edges with
      | nil => exact .nil
      | cons edge edges => exact apart_of_checkUnambiguous checked

theorem compile_selective (compiled : FlowGraph.compile serde graph jobName revision = .ok plan) :
    Selective plan.nodes plan.transitions := by
  unfold FlowGraph.compile FlowGraph.compileUnder at compiled
  split at compiled
  · obtain ⟨⟨scope, compiler⟩, built, identifying⟩ := bind_eq_ok compiled
    obtain ⟨definition, _, ending⟩ := bind_eq_ok identifying
    cases ending
    refine keepsSelective_compileScope _ graph _ scope compiler built ⟨?_, ?_⟩
    · intro id edges present
      simp [AdvancedCompiler.default] at present
    · intro id node found
      simp [AdvancedCompiler.default] at found
  · obtain ⟨entry, nodes, localScale, outgoing, definition, stages, rfl⟩ :=
      compileBase_stages compiled
    exact stages.selective

/-- Selection at a node follows the one transition that prevails for the exit code. -/
structure SelectsBest (plan : CompiledExecutionPlan Definition) (id : NodeId) (code : ExitCode)
    (edges : List FlowTransition) : Prop where
  single : ∀ (place place' : Nat) first second,
    edges[place]? = some first → edges[place']? = some second →
    Best (matching edges code) first → Best (matching edges code) second → place = place'
  selected : ∀ edge, Best (matching edges code) edge → plan.selectTarget id code = .ok edge.target
  unmapped : plan.selectTarget id code = .error (.unmappedExitOutcome id code) ↔
    ∀ edge ∈ edges, ExitPattern.matches edge.pattern code = false

theorem Selective.selectsBest {plan : CompiledExecutionPlan Definition} {id : NodeId}
    {node : FlowNode FlowGraph} (selective : Selective plan.nodes plan.transitions)
    (found : plan.nodes[id]? = some node) (single : node.splitJoin? = none) (code : ExitCode) :
    ∃ edges, plan.transitions[id]? = some edges ∧ SelectsBest plan id code edges := by
  obtain ⟨edges, present, apart⟩ := selective.apart id node found single
  have ordered := selective.ordered id edges present
  refine ⟨edges, present, ?_, ?_, ?_⟩
  · intro place place' first second here there left right
    exact best_single apart here there left right
  · intro edge best
    simp only [CompiledExecutionPlan.selectTarget, selectFrom, present,
      find_best ordered apart best]
  · simp only [CompiledExecutionPlan.selectTarget, selectFrom, present]
    cases first : edges.find? fun edge => ExitPattern.matches edge.pattern code with
    | none => simpa using first
    | some edge =>
      constructor
      · intro refused
        cases refused
      · intro unmatched
        have matched := List.find?_some first
        simp [unmatched edge (List.mem_of_find?_eq_some first)] at matched

end Plans

end OxideBatch.Plan
