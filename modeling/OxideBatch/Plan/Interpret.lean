import Mathlib
import OxideBatch.Plan.Compile

/-! The meaning of a declared flow: an interpreter that walks the graph as it is
nested, entering a nested flow at its own entry and leaving it through the most
specific matching transition of its owner. -/

namespace OxideBatch.Plan

open OxideBatch.Core

section Selection

/-- The better of two candidate transitions; the first one when they are equal. -/
def moreSpecific (best : Option FlowTransition) (edge : FlowTransition) : Option FlowTransition :=
  match best with
  | none => some edge
  | some held =>
    if ExitPattern.specificity held.pattern < ExitPattern.specificity edge.pattern then some edge
    else some held

/-- The most specific transition that matches an exit code. -/
def mostSpecific (edges : List FlowTransition) (code : ExitCode) : Option FlowTransition :=
  (edges.filter fun edge => ExitPattern.matches edge.pattern code).foldl moreSpecific none

/-- No exit code is matched by both of two equally specific transitions. -/
def Apart (left right : FlowTransition) : Prop :=
  ∀ code, ExitPattern.specificity left.pattern = ExitPattern.specificity right.pattern →
    ExitPattern.matches left.pattern code = true →
    ExitPattern.matches right.pattern code = true → False

instance : Std.Symm Apart :=
  ⟨fun _ _ apart code same first second => apart code same.symm second first⟩

theorem apart_of_checkUnambiguous (accepted : checkUnambiguous node edges = .ok ()) :
    edges.Pairwise Apart := by
  induction edges with
  | nil => exact .nil
  | cons left edges ih =>
    simp only [checkUnambiguous] at accepted
    split at accepted
    · cases accepted
    · rename_i clear
      refine .cons ?_ (ih accepted)
      intro right member code same first second
      have refused := List.find?_eq_none.mp clear right member
      simp [same, intersects_of_matches first second] at refused

/-- A transition that beats every candidate. -/
structure Best (candidates : List FlowTransition) (edge : FlowTransition) : Prop where
  mem : edge ∈ candidates
  le : ∀ other ∈ candidates,
    ExitPattern.specificity other.pattern ≤ ExitPattern.specificity edge.pattern

private theorem foldl_moreSpecific (held : FlowTransition) (candidates : List FlowTransition) :
    ∃ edge, candidates.foldl moreSpecific (some held) = some edge ∧ Best (held :: candidates) edge := by
  induction candidates generalizing held with
  | nil => exact ⟨held, rfl, List.mem_cons_self, by simp⟩
  | cons edge candidates ih =>
    rw [List.foldl_cons]
    by_cases better : ExitPattern.specificity held.pattern < ExitPattern.specificity edge.pattern
    · obtain ⟨best, folded, member, le⟩ := ih edge
      refine ⟨best, by simpa [moreSpecific, better] using folded,
        List.mem_cons_of_mem _ member, ?_⟩
      intro other found
      rcases List.mem_cons.mp found with rfl | later
      · exact (le_of_lt better).trans (le edge List.mem_cons_self)
      · exact le other later
    · obtain ⟨best, folded, member, le⟩ := ih held
      refine ⟨best, by simpa [moreSpecific, better] using folded, ?_, ?_⟩
      · rcases List.mem_cons.mp member with rfl | later
        · exact List.mem_cons_self
        · exact List.mem_cons_of_mem _ (List.mem_cons_of_mem _ later)
      · intro other found
        rcases List.mem_cons.mp found with rfl | found
        · exact le other List.mem_cons_self
        · rcases List.mem_cons.mp found with rfl | later
          · exact (not_lt.mp better).trans (le held List.mem_cons_self)
          · exact le other (List.mem_cons_of_mem _ later)

theorem mostSpecific_cases (edges : List FlowTransition) (code : ExitCode) :
    (mostSpecific edges code = none ∧
        ∀ edge ∈ edges, ExitPattern.matches edge.pattern code ≠ true) ∨
      ∃ edge, mostSpecific edges code = some edge ∧
        Best (edges.filter fun edge => ExitPattern.matches edge.pattern code) edge := by
  unfold mostSpecific
  cases candidates : edges.filter fun edge => ExitPattern.matches edge.pattern code with
  | nil => exact .inl ⟨rfl, List.filter_eq_nil_iff.mp candidates⟩
  | cons edge rest => exact .inr (foldl_moreSpecific edge rest)

theorem sortTransitions_perm (edges : List FlowTransition) : (sortTransitions edges).Perm edges :=
  List.perm_insertionSort _ _

theorem sortTransitions_descending (edges : List FlowTransition) :
    (sortTransitions edges).Pairwise fun left right =>
      ExitPattern.specificity right.pattern ≤ ExitPattern.specificity left.pattern := by
  let ranked := fun left right : FlowTransition => transitionRank left ≤ transitionRank right
  have : Std.Total ranked := ⟨fun _ _ => le_total _ _⟩
  have : IsTrans FlowTransition ranked := ⟨fun _ _ _ => le_trans⟩
  have sorted := List.pairwise_insertionSort ranked edges
  refine sorted.imp fun {left right} ordered => ?_
  have first := Prod.Lex.monotone_fst _ _ ordered
  exact first

/-- The first match behind the sort is the most specific one. -/
theorem find_sortTransitions (apart : edges.Pairwise Apart) (code : ExitCode) :
    (sortTransitions edges).find? (fun edge => ExitPattern.matches edge.pattern code) =
      mostSpecific edges code := by
  have perm := sortTransitions_perm edges
  rcases mostSpecific_cases edges code with ⟨nothing, unmatched⟩ | ⟨best, selected, wins⟩
  · rw [nothing, List.find?_eq_none]
    intro edge member
    exact unmatched edge (perm.mem_iff.mp member)
  · obtain ⟨member, matched⟩ := List.mem_filter.mp wins.mem
    cases found : (sortTransitions edges).find?
        fun edge => ExitPattern.matches edge.pattern code with
    | none => exact False.elim (List.find?_eq_none.mp found best (perm.mem_iff.mpr member) matched)
    | some first =>
      obtain ⟨firstMatched, front, back, split, unmatched⟩ :=
        List.find?_eq_some_iff_append.mp found
      have firstMember : first ∈ edges := perm.mem_iff.mp (List.mem_of_find?_eq_some found)
      have le := wins.le first (List.mem_filter.mpr ⟨firstMember, firstMatched⟩)
      have ordered := sortTransitions_descending edges
      have behind := perm.mem_iff.mpr member
      rw [split] at ordered behind
      rcases List.mem_append.mp behind with early | here
      · have refused := unmatched best early
        simp [matched] at refused
      · rcases List.mem_cons.mp here with same | late
        · rw [selected, same]
        · have ge := List.rel_of_pairwise_cons (List.pairwise_append.mp ordered).2.1 late
          by_contra different
          have distinct : first ≠ best := fun same => different (by rw [same, selected])
          exact apart.forall firstMember member distinct code
            (le_antisymm le ge) firstMatched matched

theorem mostSpecific_map {change : FlowTransition → FlowTransition}
    (same : ∀ edge, (change edge).pattern = edge.pattern) (edges : List FlowTransition)
    (code : ExitCode) :
    mostSpecific (edges.map change) code = (mostSpecific edges code).map change := by
  have folded : ∀ (candidates : List FlowTransition) (best : Option FlowTransition),
      (candidates.map change).foldl moreSpecific (best.map change) =
        (candidates.foldl moreSpecific best).map change := by
    intro candidates
    induction candidates with
    | nil => exact fun best => rfl
    | cons edge candidates ih =>
      intro best
      have step : moreSpecific (best.map change) (change edge) =
          (moreSpecific best edge).map change := by
        cases best with
        | none => rfl
        | some held =>
          simp only [moreSpecific, Option.map_some, same]
          split <;> rfl
      rw [List.map_cons, List.foldl_cons, step, ih, List.foldl_cons]
  unfold mostSpecific
  rw [List.filter_map]
  have filtered : (edges.filter ((fun edge => ExitPattern.matches edge.pattern code) ∘ change)) =
      edges.filter fun edge => ExitPattern.matches edge.pattern code := by
    congr 1
    funext edge
    simp [same]
  rw [filtered]
  exact folded _ none

end Selection

namespace FlowGraph

/-- The transitions declared for a node or nested owner. -/
def outgoing (graph : FlowGraph) (source : NodeId) : List FlowTransition :=
  graph.transitions.filter (·.source = source)

def node? (graph : FlowGraph) (id : NodeId) : Option (FlowNode FlowGraph) :=
  graph.nodes.find? (·.id = id)

def nested? (graph : FlowGraph) (id : NodeId) : Option FlowGraph :=
  (graph.nestedFlows.find? (·.id = id)).map (·.graph)

end FlowGraph

/-- Follows the most specific transition of `source`; `continue` walks on from a node. -/
def leave (graph : FlowGraph) (walkOn : NodeId → Option (List NodeId × Ending)) (source : NodeId)
    (code : ExitCode) (visited : List NodeId) : Option (List NodeId × Ending) :=
  match mostSpecific (graph.outgoing source) code with
  | none => some (visited, .failed (.unmappedExitOutcome source code))
  | some edge =>
    match edge.target with
    | .terminal kind => some (visited, .terminal kind)
    | .node target => (walkOn target).map fun walk => (visited ++ walk.1, walk.2)

/-- The walk from a declared node or nested owner; `none` is exhausted fuel. -/
def interpretFrom (codes : NodeId → ExitCode) : Nat → FlowGraph → NodeId →
    Option (List NodeId × Ending)
  | 0, _, _ => none
  | fuel + 1, graph, id =>
    match graph.nested? id with
    | some inner => do
      let start ← inner.entry
      let walk ← interpretFrom codes fuel inner start
      match walk.2 with
      | .terminal kind =>
        leave graph (interpretFrom codes fuel graph) id (normalizedTerminalCode kind) walk.1
      | .failed error => some (walk.1, .failed error)
    | none =>
      match graph.node? id with
      | none => some ([], .failed (.unknownNode id))
      | some node =>
        match node.splitJoin? with
        | some join => (interpretFrom codes fuel graph join).map fun walk => (id :: walk.1, walk.2)
        | none => leave graph (interpretFrom codes fuel graph) id (codes id) [id]

/-- The walk of a declared flow from its entry. -/
def FlowGraph.interpret (graph : FlowGraph) (codes : NodeId → ExitCode) (fuel : Nat) :
    Option (List NodeId × Ending) :=
  graph.entry.bind (interpretFrom codes fuel graph)

section Rules

variable (codes : NodeId → ExitCode)

/-- With enough fuel the interpreter returns this walk. -/
def Interprets (graph : FlowGraph) (start : NodeId) (walk : List NodeId × Ending) : Prop :=
  ∃ bound, ∀ fuel, bound ≤ fuel → interpretFrom codes fuel graph start = some walk

/-- With enough fuel the walk behind `visited` leaves `source` this way. -/
def LeavesBy (graph : FlowGraph) (source : NodeId) (code : ExitCode) (visited : List NodeId)
    (walk : List NodeId × Ending) : Prop :=
  ∃ bound, ∀ fuel, bound ≤ fuel →
    leave graph (interpretFrom codes fuel graph) source code visited = some walk

variable {codes} {graph : FlowGraph}

theorem LeavesBy.unmapped (unmapped : mostSpecific (graph.outgoing source) code = none) :
    LeavesBy codes graph source code visited
      (visited, .failed (.unmappedExitOutcome source code)) := by
  refine ⟨0, fun fuel _ => ?_⟩
  simp [leave, unmapped]

theorem LeavesBy.terminal (selected : mostSpecific (graph.outgoing source) code = some edge)
    (target : edge.target = .terminal kind) :
    LeavesBy codes graph source code visited (visited, .terminal kind) := by
  refine ⟨0, fun fuel _ => ?_⟩
  simp [leave, selected, target]

theorem LeavesBy.move (selected : mostSpecific (graph.outgoing source) code = some edge)
    (target : edge.target = .node next) (rest : Interprets codes graph next walk) :
    LeavesBy codes graph source code visited (visited ++ walk.1, walk.2) := by
  obtain ⟨bound, walked⟩ := rest
  refine ⟨bound, fun fuel enough => ?_⟩
  simp [leave, selected, target, walked fuel enough]

theorem Interprets.single {node : FlowNode FlowGraph} (owner : graph.nested? start = none)
    (found : graph.node? start = some node) (single : node.splitJoin? = none)
    (left : LeavesBy codes graph start (codes start) [start] walk) :
    Interprets codes graph start walk := by
  obtain ⟨bound, leaves⟩ := left
  refine ⟨bound + 1, fun fuel enough => ?_⟩
  obtain ⟨fuel, rfl⟩ := Nat.exists_eq_add_of_le' (Nat.le_trans (Nat.le_add_left 1 bound) enough)
  simp [interpretFrom, owner, found, single, leaves fuel (by omega)]

theorem Interprets.split {node : FlowNode FlowGraph} (owner : graph.nested? start = none)
    (found : graph.node? start = some node) (split : node.splitJoin? = some join)
    (rest : Interprets codes graph join walk) :
    Interprets codes graph start (start :: walk.1, walk.2) := by
  obtain ⟨bound, walked⟩ := rest
  refine ⟨bound + 1, fun fuel enough => ?_⟩
  obtain ⟨fuel, rfl⟩ := Nat.exists_eq_add_of_le' (Nat.le_trans (Nat.le_add_left 1 bound) enough)
  simp [interpretFrom, owner, found, split, walked fuel (by omega)]

theorem Interprets.nestedFailed {inner : FlowGraph} (owner : graph.nested? start = some inner)
    (entry : inner.entry = some entryId)
    (inside : Interprets codes inner entryId (visited, .failed error)) :
    Interprets codes graph start (visited, .failed error) := by
  obtain ⟨bound, walked⟩ := inside
  refine ⟨bound + 1, fun fuel enough => ?_⟩
  obtain ⟨fuel, rfl⟩ := Nat.exists_eq_add_of_le' (Nat.le_trans (Nat.le_add_left 1 bound) enough)
  simp [interpretFrom, owner, entry, walked fuel (by omega)]

theorem Interprets.nestedLeft {inner : FlowGraph} (owner : graph.nested? start = some inner)
    (entry : inner.entry = some entryId)
    (inside : Interprets codes inner entryId (visited, .terminal kind))
    (left : LeavesBy codes graph start (normalizedTerminalCode kind) visited walk) :
    Interprets codes graph start walk := by
  obtain ⟨bound, walked⟩ := inside
  obtain ⟨bound', leaves⟩ := left
  refine ⟨max bound bound' + 1, fun fuel enough => ?_⟩
  obtain ⟨fuel, rfl⟩ := Nat.exists_eq_add_of_le' (Nat.le_trans (Nat.le_add_left 1 _) enough)
  simp [interpretFrom, owner, entry, walked fuel (by omega), leaves fuel (by omega)]

end Rules

end OxideBatch.Plan
