import OxideBatch.Lib.DepthFirst

/-! How deep a node is: the length of the longest chain that starts at it. -/

namespace OxideBatch.Lib

open Relation

variable {α : Type} {follow : α → α → Prop} {node next : α} {bound depth : Nat}

/-- The chains from a node, themselves counted in nodes, are at most `bound` long. -/
def Bounded (follow : α → α → Prop) (node : α) (bound : Nat) : Prop :=
  ∀ path, List.IsChain follow (node :: path) → path.length < bound

/-- The longest chain from a node has `depth` nodes. -/
structure HasDepth (follow : α → α → Prop) (node : α) (depth : Nat) : Prop where
  reached : ∃ path, List.IsChain follow (node :: path) ∧ path.length + 1 = depth
  bounded : Bounded follow node depth

theorem Bounded.positive (bounded : Bounded follow node bound) : 0 < bound :=
  bounded [] (.singleton node)

/-- Behind one step the chains are one shorter. -/
theorem Bounded.step (bounded : Bounded follow node (bound + 1)) (first : follow node next) :
    Bounded follow next bound := by
  intro path chain
  have longer := bounded (next :: path) (.cons_cons first chain)
  rw [List.length_cons] at longer
  omega

theorem Bounded.weaken {wider : Nat} (bounded : Bounded follow node bound) (within : bound ≤ wider) :
    Bounded follow node wider :=
  fun path chain => Nat.lt_of_lt_of_le (bounded path chain) within

theorem Bounded.acc (bounded : Bounded follow node bound) :
    Acc (fun target source => follow source target) node := by
  induction bound generalizing node with
  | zero => exact absurd bounded.positive (Nat.lt_irrefl 0)
  | succ bound ih => exact Acc.intro node fun next first => ih (bounded.step first)

/-- A node on a cycle starts chains of any length. -/
theorem Bounded.acyclic (bounded : Bounded follow node bound) : ¬ TransGen follow node node :=
  DepthFirst.not_transGen_self bounded.acc

/-- The longest chain whose second node is among those looked at. -/
structure DepthSoFar (follow : α → α → Prop) (node : α) (seen : List α) (depth : Nat) : Prop where
  reached : ∃ path, List.IsChain follow (node :: path) ∧ path.length + 1 = depth
  bounded : ∀ next ∈ seen, Bounded follow next (depth - 1)

theorem DepthSoFar.start : DepthSoFar follow node [] 1 :=
  ⟨⟨[], .singleton node, rfl⟩, fun _ member => (List.not_mem_nil member).elim⟩

theorem DepthSoFar.look {seen : List α} {further : Nat} (soFar : DepthSoFar follow node seen depth)
    (first : follow node next) (deep : HasDepth follow next further) :
    DepthSoFar follow node (seen ++ [next]) (max depth (further + 1)) := by
  constructor
  · by_cases deeper : depth ≤ further
    · obtain ⟨path, chain, length⟩ := deep.reached
      refine ⟨next :: path, .cons_cons first chain, ?_⟩
      rw [List.length_cons, length]
      omega
    · obtain ⟨path, chain, length⟩ := soFar.reached
      exact ⟨path, chain, by omega⟩
  · intro other member
    rcases List.mem_append.mp member with earlier | here
    · exact (soFar.bounded other earlier).weaken (by omega)
    · rw [List.mem_singleton.mp here]
      exact deep.bounded.weaken (by omega)

/-- Once every follower has been looked at, the depth is known. -/
theorem DepthSoFar.finish {seen : List α} (soFar : DepthSoFar follow node seen depth)
    (all : ∀ next, follow node next → next ∈ seen) : HasDepth follow node depth := by
  refine ⟨soFar.reached, fun path chain => ?_⟩
  obtain ⟨_, _, positive⟩ := soFar.reached
  cases path with
  | nil =>
    rw [List.length_nil]
    omega
  | cons next path =>
    obtain ⟨first, chain⟩ := List.isChain_cons_cons.mp chain
    have shorter := soFar.bounded next (all next first) path chain
    rw [List.length_cons]
    omega

/-- The last node of a chain comes behind every other. -/
theorem transGen_of_chain {path : List α} {last : α} (chain : List.IsChain follow (path ++ [last]))
    (member : node ∈ path) : TransGen follow node last := by
  have steps : List.IsChain (TransGen follow) (path ++ [last]) :=
    chain.imp fun _ _ => TransGen.single
  have ordered := List.isChain_iff_pairwise.mp steps
  exact (List.pairwise_append.mp ordered).2.2 node member last List.mem_cons_self

end OxideBatch.Lib
