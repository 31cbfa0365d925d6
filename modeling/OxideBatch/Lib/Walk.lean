import Mathlib

/-! Walks of a deterministic machine: where `next` moves to another node or stops
with an ending. -/

namespace Walk

variable {α ε : Type} {next next' : α → α ⊕ ε}

/-- A walk from a node to its ending, with the nodes it visits. -/
inductive Runs (next : α → α ⊕ ε) : α → List α → ε → Prop where
  | stop : next node = .inr ending → Runs next node [node] ending
  | move : next node = .inl target → Runs next target visited ending →
      Runs next node (node :: visited) ending

/-- The walk as a function; `none` is exhausted fuel. -/
def follow (next : α → α ⊕ ε) : Nat → α → Option (List α × ε)
  | 0, _ => none
  | fuel + 1, node =>
    match next node with
    | .inr ending => some ([node], ending)
    | .inl target => (follow next fuel target).map fun walk => (node :: walk.1, walk.2)

theorem Runs.follow (runs : Runs next node visited ending) (enough : visited.length ≤ fuel) :
    Walk.follow next fuel node = some (visited, ending) := by
  induction runs generalizing fuel with
  | stop stops =>
    obtain ⟨fuel, rfl⟩ := Nat.exists_eq_add_of_le' enough
    simp [Walk.follow, stops]
  | move moves _ ih =>
    obtain ⟨fuel, rfl⟩ := Nat.exists_eq_add_of_le' (Nat.le_trans (Nat.le_add_left 1 _) enough)
    have rest := ih (Nat.le_of_succ_le_succ enough)
    simp [Walk.follow, moves, rest]

theorem Runs.unique (first : Runs next node visited ending)
    (second : Runs next node visited' ending') : visited = visited' ∧ ending = ending' := by
  induction first generalizing visited' with
  | stop stops =>
    cases second with
    | stop stops' => exact ⟨rfl, Sum.inr.inj (stops.symm.trans stops')⟩
    | move moves _ => cases stops.symm.trans moves
  | move moves _ ih =>
    cases second with
    | stop stops => cases stops.symm.trans moves
    | move moves' rest =>
      cases moves.symm.trans moves'
      obtain ⟨same, sameEnding⟩ := ih rest
      exact ⟨by rw [same], sameEnding⟩

/-- Where `next` cannot move forever, a walk exists. -/
theorem Runs.exists_of_acc (finite : Acc (fun target node => next node = .inl target) node) :
    ∃ visited ending, Runs next node visited ending := by
  induction finite with
  | intro node _ ih =>
    cases decided : next node with
    | inr ending => exact ⟨_, _, .stop decided⟩
    | inl target =>
      obtain ⟨visited, ending, runs⟩ := ih target decided
      exact ⟨_, _, .move decided runs⟩

theorem Runs.subset {scope : α → Prop} (runs : Runs next node visited ending) (inside : scope node)
    (closed : ∀ node target, scope node → next node = .inl target → scope target) :
    ∀ member ∈ visited, scope member := by
  induction runs with
  | stop _ =>
    intro member found
    rw [List.mem_singleton.mp found]
    exact inside
  | move moves _ ih =>
    intro member found
    rcases List.mem_cons.mp found with rfl | later
    · exact inside
    · exact ih (closed _ _ inside moves) member later

/-- A machine that keeps the moves of another one on a walk, and turns its ending
into another ending, walks the same nodes. -/
theorem Runs.redirect (runs : Runs next node visited ending)
    (moves : ∀ node ∈ visited, ∀ target, next node = .inl target → next' node = .inl target)
    (stops : ∀ node ∈ visited, next node = .inr ending → next' node = .inr ending') :
    Runs next' node visited ending' := by
  induction runs with
  | stop here => exact .stop (stops _ List.mem_cons_self here)
  | move here _ ih =>
    refine .move (moves _ List.mem_cons_self _ here) ?_
    exact ih (fun node member => moves node (List.mem_cons_of_mem _ member))
      fun node member => stops node (List.mem_cons_of_mem _ member)

/-- Where another machine turns the ending into a move, its walk is this walk and a
walk from the target. -/
theorem Runs.divide (runs : Runs next node visited ending)
    (moves : ∀ node ∈ visited, ∀ target, next node = .inl target → next' node = .inl target)
    (leaves : ∀ node ∈ visited, next node = .inr ending → next' node = .inl target)
    (whole : Runs next' node visited' ending') :
    ∃ later, visited' = visited ++ later ∧ Runs next' target later ending' := by
  induction runs generalizing visited' with
  | stop here =>
    have left := leaves _ List.mem_cons_self here
    cases whole with
    | stop stops => cases left.symm.trans stops
    | move moved rest =>
      cases left.symm.trans moved
      exact ⟨_, rfl, rest⟩
  | move here _ ih =>
    have moved := moves _ List.mem_cons_self _ here
    cases whole with
    | stop stops => cases moved.symm.trans stops
    | move moved' rest =>
      cases moved.symm.trans moved'
      obtain ⟨later, same, walked⟩ := ih
        (fun node member => moves node (List.mem_cons_of_mem _ member))
        (fun node member => leaves node (List.mem_cons_of_mem _ member)) rest
      exact ⟨later, by rw [same, List.cons_append], walked⟩

/-- The last node of a walk is where the machine stops. -/
theorem Runs.last (runs : Runs next node visited ending) :
    ∃ last, visited.getLast? = some last ∧ next last = .inr ending := by
  induction runs with
  | stop stops => exact ⟨_, rfl, stops⟩
  | move _ rest ih =>
    obtain ⟨last, ends, stops⟩ := ih
    refine ⟨last, ?_, stops⟩
    rw [List.getLast?_cons, ends]
    rfl

theorem Runs.congr (runs : Runs next node visited ending)
    (same : ∀ node ∈ visited, next' node = next node) : Runs next' node visited ending :=
  runs.redirect (fun node member _ moves => (same node member).trans moves)
    fun node member stops => (same node member).trans stops

theorem Runs.ne_nil (runs : Runs next node visited ending) : visited ≠ [] := by
  cases runs <;> simp

end Walk
