import OxideBatch.Plan.Similar

/-! Transitions declared in another order: they are collected alike up to order, and
the sort behind makes the same edges of them. -/

namespace OxideBatch.Plan

open OxideBatch.Core Program Agreement
open Std (ExtTreeMap ExtTreeSet)

section Push

/-- The same edges under every source, in any order. -/
abbrev EdgesLike : Edges → Edges → Prop := MapLike List.Perm

theorem EdgesLike.refl (edges : Edges) : EdgesLike edges edges := by
  intro id
  cases edges[id]? with
  | none => exact .none
  | some held => exact .some (List.Perm.refl held)

theorem EdgesLike.trans {first second third : Edges} (left : EdgesLike first second)
    (right : EdgesLike second third) : EdgesLike first third := by
  intro id
  cases here : first[id]? with
  | none =>
    rw [right.absent.mp (left.absent.mp here)]
    exact .none
  | some held =>
    obtain ⟨middle, found, perm⟩ := left.lookup here
    obtain ⟨last, found', perm'⟩ := right.lookup found
    rw [found']
    exact .some (perm.trans perm')

theorem EdgesLike.edgesOf {edges edges' : Edges} (alike : EdgesLike edges edges') (id : NodeId) :
    (edgesOf edges id).Perm (edgesOf edges' id) := by
  unfold Plan.edgesOf
  cases here : edges[id]? with
  | none => rw [alike.absent.mp here]
  | some held =>
    obtain ⟨held', found, perm⟩ := alike.lookup here
    rw [found]
    exact perm

theorem pushTransition_ok :
    pushTransition edges transition = .ok edges' ↔
      (edgesOf edges transition.source).length ≠ maxOutgoingTransitions ∧
        edges' = edges.insert transition.source
          (edgesOf edges transition.source ++ [transition]) := by
  unfold pushTransition
  dsimp only
  split
  · rename_i full
    constructor
    · intro pushed
      cases pushed
    · intro pushed
      exact absurd full pushed.1
  · rename_i room
    constructor
    · intro pushed
      cases pushed
      exact ⟨room, rfl⟩
    · rintro ⟨_, rfl⟩
      rfl

theorem pushTransition_alike {edges edges' : Edges} (alike : EdgesLike edges edges')
    (transition : FlowTransition) :
    Agree EdgesLike (pushTransition edges transition) (pushTransition edges' transition) := by
  have perm := alike.edgesOf transition.source
  unfold edgesOf at perm
  unfold pushTransition
  dsimp only
  rw [perm.length_eq]
  split
  · exact trivial
  · exact alike.insert _ (perm.append_right _)

private theorem edgesOf_insert_self (edges : Edges) (id : NodeId) (held : List FlowTransition) :
    edgesOf (edges.insert id held) id = held := by
  rw [edgesOf, getElem?_insert_self]
  rfl

private theorem edgesOf_insert_ne {edges : Edges} {id other : NodeId} (different : id ≠ other)
    (held : List FlowTransition) : edgesOf (edges.insert id held) other = edgesOf edges other := by
  rw [edgesOf, getElem?_insert_ne different, edgesOf]

/-- Two transitions are pushed alike in either order. -/
theorem pushTransition_swap (edges : Edges) (first second : FlowTransition) :
    Agree EdgesLike (pushTransition edges first >>= fun edges => pushTransition edges second)
      (pushTransition edges second >>= fun edges => pushTransition edges first) := by
  have along : ∀ first second pushed,
      (pushTransition edges first >>= fun edges => pushTransition edges second) = .ok pushed →
      ∃ pushed', (pushTransition edges second >>= fun edges => pushTransition edges first) =
        .ok pushed' ∧ EdgesLike pushed pushed' := by
    intro first second pushed yields
    obtain ⟨middle, one, two⟩ := bind_eq_ok yields
    obtain ⟨room, rfl⟩ := pushTransition_ok.mp one
    obtain ⟨room', rfl⟩ := pushTransition_ok.mp two
    by_cases same : first.source = second.source
    · rw [same, edgesOf_insert_self] at room'
      rw [same] at room
      refine ⟨_, bind_ok.mpr ⟨_, pushTransition_ok.mpr ⟨room, rfl⟩, pushTransition_ok.mpr ⟨?_, rfl⟩⟩, ?_⟩
      · rw [same, edgesOf_insert_self]
        simpa using room'
      · rw [same, edgesOf_insert_self, edgesOf_insert_self]
        intro id
        simp only [Tables.lookup_insert]
        by_cases here : second.source = id
        · rw [if_pos here, if_pos here]
          refine .some ?_
          rw [List.append_assoc, List.append_assoc]
          exact (List.Perm.swap _ _ _).append_left _
        · rw [if_neg here, if_neg here, if_neg here, if_neg here]
          exact EdgesLike.refl edges id
    · rw [edgesOf_insert_ne same] at room'
      refine ⟨_, bind_ok.mpr ⟨_, pushTransition_ok.mpr ⟨room', rfl⟩,
        pushTransition_ok.mpr ⟨?_, rfl⟩⟩, ?_⟩
      · rwa [edgesOf_insert_ne (Ne.symm same)]
      · rw [edgesOf_insert_ne same, edgesOf_insert_ne (Ne.symm same), Tables.insert_comm same]
        exact EdgesLike.refl _
  apply Agree.of_results (along first second)
  intro pushed yields
  obtain ⟨pushed', yields', _⟩ := along second first pushed yields
  exact ⟨pushed', yields'⟩

end Push

section Partition

variable {like : StepNode → StepNode → Prop} {localNodes localNodes' : NodeMap (FlowNode FlowGraph)}
  {nestedScopes : NodeMap CompiledFlowScope}

/-- Both partitions alike. -/
def PartitionsLike (left right : Edges × Edges) : Prop :=
  EdgesLike left.1 right.1 ∧ EdgesLike left.2 right.2

theorem MapLike.any_isJoin (nodesLike : MapLike (SimilarNode like) localNodes localNodes')
    (id : NodeId) : localNodes[id]?.any (·.isJoin) = localNodes'[id]?.any (·.isJoin) := by
  cases here : localNodes[id]? with
  | none => rw [nodesLike.absent.mp here]
  | some node =>
    obtain ⟨node', found, similar⟩ := nodesLike.lookup here
    rw [found]
    exact similar.isJoin

theorem MapLike.bind_splitJoin? (nodesLike : MapLike (SimilarNode like) localNodes localNodes')
    (id : NodeId) :
    localNodes[id]?.bind (·.splitJoin?) = localNodes'[id]?.bind (·.splitJoin?) := by
  cases here : localNodes[id]? with
  | none => rw [nodesLike.absent.mp here]
  | some node =>
    obtain ⟨node', found, similar⟩ := nodesLike.lookup here
    rw [found]
    exact similar.splitJoin?

theorem validateTransition_alike (nodesLike : MapLike (SimilarNode like) localNodes localNodes')
    (transition : FlowTransition) :
    validateTransition transition localNodes nestedScopes =
      validateTransition transition localNodes' nestedScopes := by
  unfold validateTransition
  simp only [nodesLike.contains, nodesLike.any_isJoin, nodesLike.bind_splitJoin?]

/-- An accepted transition goes to the exits of its owner, or to the outgoing edges. -/
theorem partitionTransition_ok {partitions partitions' : Edges × Edges} :
    partitionTransition localNodes nestedScopes partitions transition = .ok partitions' ↔
      validateTransition transition localNodes nestedScopes = .ok () ∧
        ((nestedScopes.contains transition.source = true ∧ partitions'.1 = partitions.1 ∧
            pushTransition partitions.2 transition = .ok partitions'.2) ∨
          (nestedScopes.contains transition.source = false ∧ partitions'.2 = partitions.2 ∧
            pushTransition partitions.1 transition = .ok partitions'.1)) := by
  obtain ⟨outgoing, exits⟩ := partitions
  obtain ⟨outgoing', exits'⟩ := partitions'
  unfold partitionTransition
  rw [bind_ok]
  constructor
  · rintro ⟨_, valid, placed⟩
    refine ⟨valid, ?_⟩
    split at placed
    · rename_i owned
      obtain ⟨pushed, yields, same⟩ := bind_eq_ok placed
      cases same
      exact .inl ⟨owned, rfl, yields⟩
    · rename_i executable
      obtain ⟨pushed, yields, same⟩ := bind_eq_ok placed
      cases same
      exact .inr ⟨Bool.eq_false_iff.mpr executable, rfl, yields⟩
  · rintro ⟨valid, ⟨owned, rfl, yields⟩ | ⟨executable, rfl, yields⟩⟩
    · refine ⟨(), valid, ?_⟩
      rw [if_pos owned]
      exact bind_ok.mpr ⟨_, yields, rfl⟩
    · refine ⟨(), valid, ?_⟩
      rw [if_neg (by simp [executable])]
      exact bind_ok.mpr ⟨_, yields, rfl⟩

private theorem partitionTransition_alike {partitions partitions' : Edges × Edges}
    (alike : PartitionsLike partitions partitions') (transition : FlowTransition) :
    Agree PartitionsLike (partitionTransition localNodes nestedScopes partitions transition)
      (partitionTransition localNodes nestedScopes partitions' transition) := by
  unfold partitionTransition
  refine Agree.of_eq.bind fun _ _ _ => ?_
  split
  · refine (pushTransition_alike alike.2 transition).bind fun _ _ pushed => ?_
    exact ⟨alike.1, pushed⟩
  · refine (pushTransition_alike alike.1 transition).bind fun _ _ pushed => ?_
    exact ⟨pushed, alike.2⟩

private theorem partitionTransition_swap (partitions : Edges × Edges)
    (first second : FlowTransition) :
    Agree PartitionsLike
      (partitionTransition localNodes nestedScopes partitions first >>= fun partitions =>
        partitionTransition localNodes nestedScopes partitions second)
      (partitionTransition localNodes nestedScopes partitions second >>= fun partitions =>
        partitionTransition localNodes nestedScopes partitions first) := by
  obtain ⟨outgoing, exits⟩ := partitions
  have along : ∀ first second placed,
      (partitionTransition localNodes nestedScopes (outgoing, exits) first >>= fun partitions =>
        partitionTransition localNodes nestedScopes partitions second) = .ok placed →
      ∃ placed', (partitionTransition localNodes nestedScopes (outgoing, exits) second >>=
          fun partitions => partitionTransition localNodes nestedScopes partitions first) =
        .ok placed' ∧ PartitionsLike placed placed' := by
    rintro first second ⟨outgoing', exits'⟩ yields
    obtain ⟨⟨middle, middle'⟩, one, two⟩ := bind_eq_ok yields
    obtain ⟨valid, place⟩ := partitionTransition_ok.mp one
    obtain ⟨valid', place'⟩ := partitionTransition_ok.mp two
    simp only [bind_ok, partitionTransition_ok, Prod.exists]
    rcases place with ⟨owned, rfl, pushed⟩ | ⟨executable, rfl, pushed⟩
    · rcases place' with ⟨owned', rfl, pushed'⟩ | ⟨executable', rfl, pushed'⟩
      · obtain ⟨last, swapped, alike⟩ := (pushTransition_swap exits first second).result
          (bind_ok.mpr ⟨middle', pushed, pushed'⟩)
        obtain ⟨between, one', two'⟩ := bind_eq_ok swapped
        exact ⟨_, last, ⟨_, between, ⟨valid', .inl ⟨owned', rfl, one'⟩⟩,
          valid, .inl ⟨owned, rfl, two'⟩⟩, EdgesLike.refl _, alike⟩
      · exact ⟨_, _, ⟨_, _, ⟨valid', .inr ⟨executable', rfl, pushed'⟩⟩,
          valid, .inl ⟨owned, rfl, pushed⟩⟩, EdgesLike.refl _, EdgesLike.refl _⟩
    · rcases place' with ⟨owned', rfl, pushed'⟩ | ⟨executable', rfl, pushed'⟩
      · exact ⟨_, _, ⟨_, _, ⟨valid', .inl ⟨owned', rfl, pushed'⟩⟩,
          valid, .inr ⟨executable, rfl, pushed⟩⟩, EdgesLike.refl _, EdgesLike.refl _⟩
      · obtain ⟨last, swapped, alike⟩ := (pushTransition_swap outgoing first second).result
          (bind_ok.mpr ⟨middle, pushed, pushed'⟩)
        obtain ⟨between, one', two'⟩ := bind_eq_ok swapped
        exact ⟨last, _, ⟨between, _, ⟨valid', .inr ⟨executable', rfl, one'⟩⟩,
          valid, .inr ⟨executable, rfl, two'⟩⟩, alike, EdgesLike.refl _⟩
  apply Agree.of_results (along first second)
  intro placed yields
  obtain ⟨placed', yields', _⟩ := along second first placed yields
  exact ⟨placed', yields'⟩

theorem partitionTransitions_alike {transitions transitions' : List FlowTransition}
    (perm : transitions.Perm transitions')
    (nodesLike : MapLike (SimilarNode like) localNodes localNodes') :
    Agree PartitionsLike (partitionTransitions transitions localNodes nestedScopes)
      (partitionTransitions transitions' localNodes' nestedScopes) := by
  have same : partitionTransition localNodes nestedScopes =
      partitionTransition localNodes' nestedScopes := by
    funext partitions transition
    unfold partitionTransition
    rw [validateTransition_alike nodesLike]
  unfold partitionTransitions
  rw [same]
  apply Agree.foldlM_perm ?_ ?_ ?_ ?_ perm
  · exact ⟨EdgesLike.refl _, EdgesLike.refl _⟩
  · exact fun _ => ⟨EdgesLike.refl _, EdgesLike.refl _⟩
  · exact fun left right => ⟨left.1.trans right.1, left.2.trans right.2⟩
  · exact fun _ _ transition alike => partitionTransition_alike alike transition
  · exact fun partitions first second => partitionTransition_swap partitions first second

/-- Edges stand under their source. -/
def Sourced (edges : Edges) : Prop :=
  ∀ (id : NodeId) held, edges[id]? = some held → ∀ edge ∈ held, edge.source = id

theorem Sourced.push (sourced : Sourced edges)
    (pushed : pushTransition edges transition = .ok edges') : Sourced edges' := by
  obtain ⟨_, rfl⟩ := pushTransition_ok.mp pushed
  intro id held found edge member
  rcases Tables.lookup_insert_cases found with ⟨rfl, rfl⟩ | ⟨_, old⟩
  · rcases List.mem_append.mp member with old | new
    · unfold edgesOf at old
      cases present : edges[transition.source]? with
      | none =>
        rw [present] at old
        cases old
      | some before =>
        rw [present] at old
        exact sourced _ before present edge old
    · rw [List.mem_singleton.mp new]
  · exact sourced id held old edge member

def PartitionsSourced (partitions : Edges × Edges) : Prop :=
  Sourced partitions.1 ∧ Sourced partitions.2

theorem partitionTransitions_sourced
    (partition : partitionTransitions transitions localNodes nestedScopes = .ok partitions) :
    PartitionsSourced partitions := by
  refine foldlM_ok ?_ ?_ partition
  · intro held transition next sourced placed
    obtain ⟨_, ⟨_, same, pushed⟩ | ⟨_, same, pushed⟩⟩ := partitionTransition_ok.mp placed
    · exact ⟨same ▸ sourced.1, sourced.2.push pushed⟩
    · exact ⟨sourced.1.push pushed, same ▸ sourced.2⟩
  · constructor
    · intro id held found
      simp at found
    · intro id held found
      simp at found

end Partition

end OxideBatch.Plan
