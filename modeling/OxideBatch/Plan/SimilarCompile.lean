import OxideBatch.Plan.SimilarEdges

/-! The compiler on flows that are the same up to the order of their declarations:
both runs fail, or both return the same scope in plans that differ in no more than
the order inside retained branches. -/

namespace OxideBatch.Plan

open OxideBatch.Core Program Agreement
open Std (ExtTreeMap ExtTreeSet)

section Exits

variable {nestedScopes : NodeMap CompiledFlowScope}

/-- The exits of every owner are sorted into the same list. -/
private theorem validateNestedExits_alike {exits exits' : Edges} (alike : EdgesLike exits exits')
    (sourced : Sourced exits) :
    Agree (fun sorted sorted' => ∀ owner : NodeId, nestedScopes.contains owner = true →
        sorted[owner]? = sorted'[owner]?)
      (validateNestedExits nestedScopes exits) (validateNestedExits nestedScopes exits') := by
  have pairs : List.Forall₂ (· = ·) nestedScopes.keys nestedScopes.keys :=
    List.forall₂_refl nestedScopes.keys
  have agree : Agree EdgesLike (validateNestedExits nestedScopes exits)
      (validateNestedExits nestedScopes exits') := by
    apply Agree.foldlM ?_ pairs alike
    rintro held held' owner _ heldAlike rfl
    have perm := heldAlike.edgesOf owner
    unfold edgesOf at perm
    generalize held[owner]?.getD [] = edges at perm
    generalize held'[owner]?.getD [] = edges' at perm
    cases edges with
    | nil =>
      rw [List.nil_perm.mp perm]
      exact trivial
    | cons edge edges =>
      cases edges' with
      | nil => exact absurd perm.eq_nil (List.cons_ne_nil _ _)
      | cons edge' edges' =>
        refine (checkUnambiguous_perm perm).bind fun _ _ _ => ?_
        apply heldAlike.insert
        exact ((sortTransitions_perm _).trans perm).trans (sortTransitions_perm _).symm
  refine agree.of_answers.mono ?_
  rintro sorted sorted' ⟨_, yields, yields'⟩ owner owned
  rw [(validateNestedExits_sorted yields owner owned).1,
    (validateNestedExits_sorted yields' owner owned).1]
  have same : sortTransitions (edgesOf exits owner) = sortTransitions (edgesOf exits' owner) := by
    apply sortTransitions_eq_of_perm (alike.edgesOf owner)
    intro edge member
    unfold edgesOf at member
    cases present : exits[owner]? with
    | none =>
      rw [present] at member
      cases member
    | some held =>
      rw [present] at member
      exact sourced owner held present edge member
  exact congrArg some same

variable {like : StepNode → StepNode → Prop}

private theorem simulates_normalize {nestedExits nestedExits' : Edges}
    (same : ∀ owner : NodeId, nestedScopes.contains owner = true →
      nestedExits[owner]? = nestedExits'[owner]?) :
    Simulates (Alike like) (fun _ _ => True)
      (nestedScopes.toList.forM fun entry =>
        normalizeNestedBoundary nestedScopes nestedExits entry.1 entry.2)
      (nestedScopes.toList.forM fun entry =>
        normalizeNestedBoundary nestedScopes nestedExits' entry.1 entry.2) := by
  have pairs : List.Forall₂ (fun entry entry' : NodeId × CompiledFlowScope =>
      entry = entry' ∧ nestedScopes.contains entry.1 = true)
      nestedScopes.toList nestedScopes.toList := by
    apply List.forall₂_same.mpr
    intro entry member
    refine ⟨rfl, ?_⟩
    rw [ExtTreeMap.contains_eq_isSome_getElem?,
      ExtTreeMap.mem_toList_iff_getElem?_eq_some.mp member]
    rfl
  apply Simulates.forM ?_ pairs
  rintro entry _ ⟨rfl, owned⟩
  unfold normalizeNestedBoundary
  rw [same entry.1 owned]
  cases nestedExits'[entry.1]? with
  | none => exact Simulates.throw
  | some exits =>
    refine Simulates.get.bind ?_
    rintro compiler _ ⟨nodes, rfl, nodesLike⟩
    refine (Simulates.lift Agree.of_eq).bind ?_
    rintro transitions _ rfl
    exact simulates_change (fun _ _ => rfl) fun _ => rfl

end Exits

section Install

variable {like : StepNode → StepNode → Prop}

private theorem simulates_installLocalNodes {localNodes localNodes' : NodeMap (FlowNode FlowGraph)}
    (nodesLike : MapLike (SimilarNode like) localNodes localNodes') :
    Simulates (Alike like) (fun _ _ => True) (installLocalNodes localNodes)
      (installLocalNodes localNodes') := by
  refine Simulates.get.bind ?_
  rintro compiler _ ⟨nodes, rfl, held⟩
  refine (Simulates.lift (insertFresh_pairs held nodesLike.toList)).bind ?_
  intro installed installed' installedLike
  apply Simulates.modify
  rintro state _ ⟨_, rfl, _⟩
  exact ⟨installed', rfl, installedLike⟩

/-- Outgoing edges that are the same up to order are installed as the same edges. -/
private theorem simulates_installTransitions {nestedScopes : NodeMap CompiledFlowScope}
    {outgoing outgoing' : Edges} (alike : EdgesLike outgoing outgoing') (sourced : Sourced outgoing) :
    Simulates (Alike like) (fun _ _ => True)
      (installTransitions (outgoing.map fun _ edges => edges.map (resolveEdge nestedScopes)))
      (installTransitions (outgoing'.map fun _ edges => edges.map (resolveEdge nestedScopes))) := by
  have resolved : MapLike (fun edges edges' => sortTransitions edges = sortTransitions edges')
      (outgoing.map fun _ edges => edges.map (resolveEdge nestedScopes))
      (outgoing'.map fun _ edges => edges.map (resolveEdge nestedScopes)) := by
    intro id
    rw [ExtTreeMap.getElem?_map, ExtTreeMap.getElem?_map]
    cases here : outgoing[id]? with
    | none =>
      rw [alike.absent.mp here]
      exact .none
    | some edges =>
      obtain ⟨edges', found, perm⟩ := alike.lookup here
      rw [found]
      refine .some ?_
      apply sortTransitions_eq_of_perm (perm.map _)
      intro edge member
      obtain ⟨declared, present, rfl⟩ := List.mem_map.mp member
      exact sourced id edges here declared present
  have entries : ((outgoing.map fun _ edges => edges.map (resolveEdge nestedScopes)).toList.map
        fun entry => (entry.1, sortTransitions entry.2)) =
      ((outgoing'.map fun _ edges => edges.map (resolveEdge nestedScopes)).toList.map
        fun entry => (entry.1, sortTransitions entry.2)) := by
    have pairs := resolved.toList
    generalize (outgoing.map fun _ edges => edges.map (resolveEdge nestedScopes)).toList = left at pairs
    generalize (outgoing'.map fun _ edges => edges.map (resolveEdge nestedScopes)).toList = right
      at pairs
    induction pairs with
    | nil => rfl
    | cons here _ ih => rw [List.map_cons, List.map_cons, here.1, here.2, ih]
  unfold installTransitions
  rw [entries]
  refine Simulates.get.bind ?_
  rintro compiler _ ⟨nodes, rfl, held⟩
  refine (Simulates.lift Agree.of_eq).bind ?_
  rintro transitions _ rfl
  exact simulates_change (fun _ _ => rfl) fun _ => rfl

/-- The check of a scope sees no more of a node than whether it is a split. -/
private theorem validateScope_alike {compiler compiler' : AdvancedCompiler}
    (alike : Alike like compiler compiler') (entry : NodeId) (members : ExtTreeSet NodeId) :
    validateScopeUnder checkUnambiguous compiler entry members =
      validateScopeUnder checkUnambiguous compiler' entry members := by
  obtain ⟨nodes, rfl, nodesLike⟩ := alike
  have member : validateMemberUnder checkUnambiguous compiler members =
      validateMemberUnder checkUnambiguous { compiler with nodes } members := by
    funext id
    unfold validateMemberUnder
    dsimp only
    cases here : compiler.nodes[id]? with
    | none => rw [nodesLike.absent.mp here]
    | some node =>
      obtain ⟨node', found, similar⟩ := nodesLike.lookup here
      rw [found]
      simp only [similar.splitJoin?]
  have expand : expandScope compiler members = expandScope { compiler with nodes } members := by
    funext id
    unfold expandScope
    simp only [nodesLike.bind_splitJoin?]
  unfold validateScopeUnder
  rw [member, expand]

end Install

section Compile

variable {like : StepNode → StepNode → Prop} {descend : FlowGraph → CompilerM CompiledFlowScope}
  (alike : ∀ left right, like left right → StepNode.Like left right)

include alike

private theorem simulates_compileScopeWith
    (descends : ∀ left right, Similar like left right →
      Simulates (Alike like) (· = ·) (descend left) (descend right))
    {left right : FlowGraph} (similar : Similar like left right) :
    Simulates (Alike like) (· = ·) (compileScopeWith descend left) (compileScopeWith descend right) := by
  refine (simulates_prepareScope alike similar).bind ?_
  intro prepared prepared' preparedLike
  refine (simulates_compileNestedScopes descends preparedLike.nested).bind ?_
  rintro nestedScopes _ rfl
  rw [preparedLike.entry, preparedLike.nodes.keys]
  refine (simulates_materializeLocalStructure alike descends preparedLike.nodes).bind
    fun _ _ _ => ?_
  have partition : Agree PartitionsLike
      (partitionTransitions prepared.transitions prepared.localNodes nestedScopes)
      (partitionTransitions prepared'.transitions prepared'.localNodes nestedScopes) :=
    partitionTransitions_alike preparedLike.transitions preparedLike.nodes
  refine (Simulates.lift partition.of_answers).bind ?_
  rintro partitions partitions' ⟨⟨outgoing, exits⟩, yields, _⟩
  have sourced := partitionTransitions_sourced yields
  refine (Simulates.lift (validateNestedExits_alike exits sourced.2)).bind ?_
  intro nestedExits nestedExits' sameExits
  refine ((simulates_normalize sameExits).bind fun _ _ _ => ?_ : Simulates (Alike like)
    (fun edges edges' => edges = (partitions.1.map fun _ edges =>
        edges.map (resolveEdge nestedScopes)) ∧
      edges' = (partitions'.1.map fun _ edges => edges.map (resolveEdge nestedScopes))) _ _).bind ?_
  · exact Simulates.pure ⟨rfl, rfl⟩
  · rintro _ _ ⟨rfl, rfl⟩
    refine (simulates_installLocalNodes preparedLike.nodes).bind fun _ _ _ => ?_
    refine (simulates_installTransitions outgoing sourced.1).bind fun _ _ _ => ?_
    refine Simulates.get.bind ?_
    intro compiler compiler' related
    rw [validateScope_alike related]
    refine (Simulates.lift Agree.of_eq).bind fun _ _ _ => ?_
    exact Simulates.pure rfl

theorem simulates_compileScope (levels : Nat) {left right : FlowGraph}
    (similar : Similar like left right) :
    Simulates (Alike like) (· = ·) (compileScope levels left) (compileScope levels right) := by
  induction levels generalizing left right with
  | zero => exact Simulates.throw
  | succ levels ih =>
    exact simulates_compileScopeWith alike (fun _ _ similar => ih similar) similar

end Compile

end OxideBatch.Plan
