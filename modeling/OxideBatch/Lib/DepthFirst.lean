import Mathlib

/-! Depth-first search with a path check: a search that returns has met no cycle. -/

namespace DepthFirst

variable {α ε : Type} [DecidableEq α]

/-- Visits a node behind `path`; the answer is the nodes visited so far. A path
longer than the fuel has repeated a node. -/
def visit (expand : α → Except ε (List α)) (cyclic : α → ε) :
    Nat → List α → List α → α → Except ε (List α)
  | 0, _, _, node => .error (cyclic node)
  | fuel + 1, path, visited, node =>
    if node ∈ path then .error (cyclic node)
    else if node ∈ visited then .ok visited
    else do
      let targets ← expand node
      targets.foldlM (fun visited target => visit expand cyclic fuel (node :: path) visited target)
        (node :: visited)

/-- `target` is one of the nodes that `node` leads to. -/
def Leads (expand : α → Except ε (List α)) (target node : α) : Prop :=
  ∃ targets, expand node = .ok targets ∧ target ∈ targets

variable {expand : α → Except ε (List α)} {cyclic : α → ε}

/-- Visited nodes off the path are finished: nothing behind them repeats. -/
def Finished (expand : α → Except ε (List α)) (path visited : List α) : Prop :=
  ∀ node ∈ visited, node ∉ path → Acc (Leads expand) node

/-- What a search from a node establishes. -/
structure Found (expand : α → Except ε (List α)) (path visited visited' : List α) (node : α) :
    Prop where
  off : node ∉ path
  here : node ∈ visited'
  grown : visited ⊆ visited'
  finished : Finished expand path visited'

private theorem visit_all {fuel : Nat} {path targets : List α}
    (one : ∀ visited visited' node, Finished expand path visited →
      visit expand cyclic fuel path visited node = .ok visited' →
      Found expand path visited visited' node)
    (finished : Finished expand path visited)
    (ended : targets.foldlM (fun visited target => visit expand cyclic fuel path visited target)
      visited = .ok visited') :
    visited ⊆ visited' ∧ Finished expand path visited' ∧
      ∀ target ∈ targets, target ∉ path ∧ target ∈ visited' := by
  induction targets generalizing visited with
  | nil =>
    cases ended
    exact ⟨List.Subset.refl _, finished, fun _ member => by cases member⟩
  | cons target targets ih =>
    rw [List.foldlM_cons] at ended
    cases first : visit expand cyclic fuel path visited target with
    | error failure =>
      rw [first] at ended
      cases ended
    | ok middle =>
      rw [first] at ended
      have found := one _ _ _ finished first
      obtain ⟨grown, finished', rest⟩ := ih found.finished ended
      refine ⟨fun _ member => grown (found.grown member), finished', ?_⟩
      intro other member
      rcases List.mem_cons.mp member with rfl | later
      · exact ⟨found.off, grown found.here⟩
      · exact rest other later

theorem visit_found {fuel : Nat} {path visited visited' : List α} {node : α}
    (finished : Finished expand path visited)
    (ended : visit expand cyclic fuel path visited node = .ok visited') :
    Found expand path visited visited' node := by
  induction fuel generalizing path visited visited' node with
  | zero => cases ended
  | succ fuel ih =>
    unfold visit at ended
    split at ended
    · cases ended
    · rename_i off
      split at ended
      · rename_i seen
        cases ended
        exact ⟨off, seen, List.Subset.refl _, finished⟩
      · cases expanded : expand node with
        | error failure =>
          rw [expanded] at ended
          cases ended
        | ok targets =>
          rw [expanded] at ended
          have start : Finished expand (node :: path) (node :: visited) := by
            intro other member away
            rcases List.mem_cons.mp member with rfl | old
            · exact False.elim (away List.mem_cons_self)
            · exact finished other old fun onPath => away (List.mem_cons_of_mem _ onPath)
          obtain ⟨grown, finished', reached⟩ :=
            visit_all (fun _ _ _ => ih) start ended
          have done : Acc (Leads expand) node := by
            refine Acc.intro node fun target leads => ?_
            obtain ⟨others, same, member⟩ := leads
            cases expanded.symm.trans same
            obtain ⟨away, seen⟩ := reached target member
            exact finished' target seen away
          refine ⟨off, grown List.mem_cons_self,
            fun other member => grown (List.mem_cons_of_mem _ member), ?_⟩
          intro other member away
          by_cases same : other = node
          · exact same ▸ done
          · refine finished' other member fun onPath => ?_
            rcases List.mem_cons.mp onPath with here | later
            · exact same here
            · exact away later

/-- A search that returns has reached no cycle. -/
theorem acc_of_visit {fuel : Nat} {node : α}
    (ended : visit expand cyclic fuel [] [] node = .ok visited) :
    Acc (Leads expand) node :=
  have found := visit_found (fun _ member => by cases member) ended
  found.finished node found.here (fun member => by cases member)

section Reach

open Relation

/-- From a node to one it leads to. -/
def Follow (expand : α → Except ε (List α)) (node target : α) : Prop := Leads expand target node

/-- Everything a search adds is reached from where it starts. -/
theorem visit_reached {fuel : Nat} {path visited visited' : List α} {node : α}
    (ended : visit expand cyclic fuel path visited node = .ok visited') :
    ∀ other ∈ visited', other ∈ visited ∨ ReflTransGen (Follow expand) node other := by
  induction fuel generalizing path visited visited' node with
  | zero => cases ended
  | succ fuel ih =>
    unfold visit at ended
    split at ended
    · cases ended
    · split at ended
      · cases ended
        exact fun other member => .inl member
      · cases expanded : expand node with
        | error failure =>
          rw [expanded] at ended
          cases ended
        | ok targets =>
          rw [expanded] at ended
          -- over the targets still to visit: each one is a node that `node` leads to
          have all : ∀ (rest : List α) (held : List α), (∀ target ∈ rest, target ∈ targets) →
              (∀ other ∈ held, other ∈ visited ∨ ReflTransGen (Follow expand) node other) →
              rest.foldlM (fun visited target =>
                visit expand cyclic fuel (node :: path) visited target) held = .ok visited' →
              ∀ other ∈ visited', other ∈ visited ∨ ReflTransGen (Follow expand) node other := by
            intro rest
            induction rest with
            | nil =>
              intro held _ reached done
              cases done
              exact reached
            | cons target rest later =>
              intro held among reached done
              rw [List.foldlM_cons] at done
              cases first : visit expand cyclic fuel (node :: path) held target with
              | error failure =>
                rw [first] at done
                cases done
              | ok middle =>
                rw [first] at done
                apply later middle (fun other member => among other (List.mem_cons_of_mem _ member))
                · intro other member
                  rcases ih first other member with old | new
                  · exact reached other old
                  · have step : Follow expand node target :=
                      ⟨targets, expanded, among target List.mem_cons_self⟩
                    exact .inr (.head step new)
                · exact done
          apply all targets (node :: visited) (fun _ member => member) ?_ ended
          intro other member
          rcases List.mem_cons.mp member with rfl | old
          · exact .inr .refl
          · exact .inl old

theorem reached_of_visit {fuel : Nat} {node : α}
    (ended : visit expand cyclic fuel [] [] node = .ok visited) :
    ∀ other ∈ visited, ReflTransGen (Follow expand) node other := by
  intro other member
  rcases visit_reached ended other member with old | new
  · cases old
  · exact new

end Reach

section Paths

open Relation

variable {β : Type} {follow : β → β → Prop} {node : β} {path : List β}

/-- No node reaches itself where nothing goes on forever. -/
theorem not_transGen_self (finite : Acc (fun target source => follow source target) node) :
    ¬ TransGen follow node node := by
  induction finite with
  | intro node _ ih =>
    intro cycle
    obtain ⟨next, first, back⟩ := TransGen.head'_iff.mp cycle
    apply ih next first
    exact TransGen.tail' back first

/-- A path from a node behind which nothing goes on forever repeats no node. -/
theorem nodup_of_acc (finite : Acc (fun target source => follow source target) node)
    (walk : List.IsChain follow (node :: path)) : (node :: path).Nodup := by
  induction path generalizing node with
  | nil => exact List.nodup_singleton node
  | cons next path ih =>
    obtain ⟨first, rest⟩ := List.isChain_cons_cons.mp walk
    refine List.nodup_cons.mpr ⟨?_, ih (finite.inv first) rest⟩
    intro again
    apply not_transGen_self finite
    have chain : List.IsChain (TransGen follow) (node :: next :: path) :=
      walk.imp fun _ _ => TransGen.single
    exact (List.pairwise_cons.mp (List.isChain_iff_pairwise.mp chain)).1 node again

end Paths

end DepthFirst
