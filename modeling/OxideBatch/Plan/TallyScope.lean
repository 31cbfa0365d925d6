import OxideBatch.Plan.Tally

/-! A compiled scope reserves what it installs: nested flows and branches first, then
the boundaries of nested flows, then its own nodes and transitions. -/

namespace OxideBatch.Plan

open OxideBatch.Core Program
open Std (ExtTreeMap ExtTreeSet)

section Nested

variable {descend : FlowGraph → CompilerM CompiledFlowScope} {before after : AdvancedCompiler}

theorem compileNestedScopes_tallied (tallies : Tallies descend) (rooted : Rooted before)
    (yields : compileNestedScopes descend nested before = .ok (scopes, after)) :
    Rooted after ∧ Tallied (fun _ => False) 0 0 (fun _ => 0)
      (fun node => ∃ flow ∈ nested.toList, Declares flow.2 node) before after := by
  have general : ∀ (flows : List (NodeId × FlowGraph)) (held : NodeMap CompiledFlowScope)
      (before : AdvancedCompiler), Rooted before →
      flows.foldlM (compileNestedScope descend) held before = .ok (scopes, after) →
      Rooted after ∧ Tallied (fun _ => False) 0 0 (fun _ => 0)
        (fun node => ∃ flow ∈ flows, Declares flow.2 node) before after := by
    intro flows
    induction flows with
    | nil =>
      intro held before rooted ended
      cases ended
      refine ⟨rooted, (Tallied.of_adds (Adds.refl _)).weaken (fun _ owned => owned) rfl rfl ?_ ?_⟩
      · exact fun _ => rfl
      · simp
    | cons flow flows ih =>
      intro held before rooted ended
      rw [List.foldlM_cons] at ended
      obtain ⟨next, later, first, rest⟩ := yields_bind ended
      obtain ⟨scope, state, compiledOne, ending⟩ := yields_bind first
      obtain ⟨rfl, rfl⟩ := yields_pure ending
      obtain ⟨middle, one⟩ := tallies _ _ _ _ rooted compiledOne
      obtain ⟨last, others⟩ := ih _ _ middle rest
      refine ⟨last, (one.trans others).weaken (fun _ owned => owned) rfl rfl (fun _ => rfl) ?_⟩
      intro node
      simp
  exact general nested.toList ∅ before rooted yields

theorem compileNestedScopes_keys
    (yields : compileNestedScopes descend nested before = .ok (scopes, after)) :
    ∀ id : NodeId, scopes.contains id = nested.contains id := by
  have general : ∀ (flows : List (NodeId × FlowGraph)) (held : NodeMap CompiledFlowScope)
      (before : AdvancedCompiler),
      flows.foldlM (compileNestedScope descend) held before = .ok (scopes, after) →
      ∀ id, scopes.contains id = true ↔ held.contains id = true ∨ id ∈ flows.map (·.1) := by
    intro flows
    induction flows with
    | nil =>
      intro held before ended id
      cases ended
      simp
    | cons flow flows ih =>
      intro held before ended id
      rw [List.foldlM_cons] at ended
      obtain ⟨next, later, first, rest⟩ := yields_bind ended
      obtain ⟨scope, state, compiledOne, ending⟩ := yields_bind first
      obtain ⟨rfl, rfl⟩ := yields_pure ending
      rw [ih _ _ rest id, ExtTreeMap.contains_insert, Bool.or_eq_true, beq_iff_eq,
        Std.LawfulEqOrd.compare_eq_iff_eq, List.map_cons, List.mem_cons]
      tauto
  intro id
  have whole := general nested.toList ∅ before yields id
  rw [Bool.eq_iff_iff, whole, ExtTreeMap.contains_empty, ExtTreeMap.map_fst_toList_eq_keys,
    ExtTreeMap.mem_keys, ExtTreeMap.contains_iff_mem]
  simp

end Nested

section Materialize

variable {descend : FlowGraph → CompilerM CompiledFlowScope} {before after : AdvancedCompiler}

/-- The nodes a flow branch declares. -/
def SplitBranch.Declares (branch : SplitBranch FlowGraph) (node : FlowNode FlowGraph) : Prop :=
  ∃ inner, branch.flow = some inner ∧ Plan.Declares inner node

theorem Rooted.record {key : NodeId × Nat} (rooted : Rooted before) (member : key.1 ∈ before.allIds)
    (pending : before.nodes[key.1]? = none) (scope : CompiledFlowScope) :
    Rooted (before.record key scope) := by
  refine ⟨⟨rooted.within.nodes, rooted.within.transitions, rooted.within.components,
    rooted.within.keyed⟩, ?_, rooted.nodes, rooted.records, ?_⟩
  · intro other recorded found
    rcases Tables.lookup_insert_cases found with ⟨rfl, _⟩ | ⟨_, old⟩
    · exact member
    · exact rooted.reserved other recorded old
  · intro id split found ordinal branch present
    have away : key ≠ (id, ordinal) := by
      rintro rfl
      have installed : before.nodes[id]? = some (.split split) := found
      rw [pending] at installed
      cases installed
    have kept : (before.record key scope).splitBranchScopes[(id, ordinal)]? =
        before.splitBranchScopes[(id, ordinal)]? := Tables.lookup_insert.trans (if_neg away)
    rw [kept]
    exact rooted.branches id split found ordinal branch present

/-- One branch of a split: its place and linear steps are reserved, or its flow is
compiled and recorded under its ordinal. -/
private theorem materializeBranch_tallied {id : NodeId} {ordinal : Nat} (tallies : Tallies descend)
    (rooted : Rooted before) (member : id ∈ before.allIds) (pending : before.nodes[id]? = none)
    (unused : before.splitBranchScopes[(id, ordinal)]? = none)
    (yields : materializeBranch descend id ordinal branch before = .ok ((), after)) :
    Rooted after ∧
      Tallied (· = id) branch.places 0 (fun _ => 0) branch.Declares before after ∧
      after.splitBranchScopes[(id, ordinal)]?.isSome = branch.flow.isSome ∧
      ∀ other, other ≠ ordinal →
        after.splitBranchScopes[(id, other)]? = before.splitBranchScopes[(id, other)]? := by
  obtain ⟨_, counted, counting, toCheck⟩ := yields_bind yields
  cases counting
  obtain ⟨_, checked, checking, toBranch⟩ := yields_bind toCheck
  obtain ⟨rfl, few⟩ := checkMaterializedNodes_within checking
  have one : Adds 1 0 [] before
      { before with structuralBranches := before.structuralBranches + 1 } := by
    refine ⟨⟨rfl, rfl, rfl, rfl, fun _ member => member⟩, ?_, rfl, fun _ => rfl, fun within => ?_⟩
    · simp only [AdvancedCompiler.materialized]
      omega
    · exact ⟨few, within.transitions, within.components, within.keyed⟩
  cases flow : branch.flow with
  | none =>
    rw [flow] at toBranch
    dsimp only at toBranch
    split at toBranch
    · cases toBranch
    · have steps := adds_forM (fun _ => 1) (fun _ => [])
        (fun step _ _ _ yields => adds_reserveId yields) toBranch
      have all := one.trans steps
      refine ⟨rooted.of_adds all, (Tallied.of_adds all).weaken (fun _ owned => owned) ?_ rfl ?_ ?_, ?_, ?_⟩
      · simp [SplitBranch.places, flow]
      · intro repeated
        rw [flatMap_none]
        rfl
      · simp [SplitBranch.Declares, flow]
      · rw [all.quiet.branches, unused]
        rfl
      · intro other _
        rw [all.quiet.branches]
  | some graph =>
    rw [flow] at toBranch
    obtain ⟨scope, compiled, compiling, recording⟩ := yields_bind toBranch
    cases recording
    obtain ⟨rooted', inner⟩ := tallies _ _ _ _ (rooted.of_adds one) compiling
    have whole := (Tallied.of_adds one).trans
      (@Tallied.weaken _ _ _ _ _ _ _ _ _ _ _ (· = id) inner (fun _ => False.elim) rfl rfl
        (fun _ => rfl) fun _ => Iff.rfl)
    have kept : ∀ other : Nat, compiled.splitBranchScopes[(id, other)]? =
        before.splitBranchScopes[(id, other)]? :=
      fun other => inner.keys (id, other) member not_false
    refine ⟨rooted'.record (whole.ids id member) ?_ scope, ?_, ?_, ?_⟩
    · rw [whole.kept member]
      exact pending
    · have named : Tallied (· = id) branch.places 0 (fun _ => 0) branch.Declares before compiled := by
        refine whole.weaken (fun _ owned => owned) ?_ rfl (fun _ => rfl) ?_
        · simp [SplitBranch.places, flow]
        · simp [SplitBranch.Declares, flow]
      refine ⟨named.ids, named.nodes, named.fresh, named.records, ?_, named.places, named.edges,
        named.repeats⟩
      intro key taken foreign
      have away : (id, ordinal) ≠ key := by
        rintro rfl
        exact foreign rfl
      exact (Tables.lookup_insert.trans (if_neg away)).trans (named.keys key taken foreign)
    · exact congrArg Option.isSome (Tables.lookup_insert.trans (if_pos rfl))
    · intro other different
      have away : (id, ordinal) ≠ (id, other) := by
        intro same
        exact different (Prod.mk.inj same).2.symm
      exact (Tables.lookup_insert.trans (if_neg away)).trans (kept other)

/-- The branches of a split, under ordinals that are still free. -/
private theorem materializeBranches_tallied {id : NodeId} {branches : List (SplitBranch FlowGraph)}
    {start : Nat} (tallies : Tallies descend) (rooted : Rooted before)
    (member : id ∈ before.allIds) (pending : before.nodes[id]? = none)
    (unused : ∀ ordinal, start ≤ ordinal → before.splitBranchScopes[(id, ordinal)]? = none)
    (yields : (branches.zipIdx start).forM
      (fun branch => materializeBranch descend id branch.2 branch.1) before = .ok ((), after)) :
    Rooted after ∧
      Tallied (· = id) (branches.map (·.places)).sum 0 (fun _ => 0)
        (fun node => ∃ branch ∈ branches, branch.Declares node) before after ∧
      (∀ ordinal < start,
        after.splitBranchScopes[(id, ordinal)]? = before.splitBranchScopes[(id, ordinal)]?) ∧
      ∀ (place : Nat) (branch : SplitBranch FlowGraph), branches[place]? = some branch →
        after.splitBranchScopes[(id, start + place)]?.isSome = branch.flow.isSome := by
  induction branches generalizing start before with
  | nil =>
    cases yields
    refine ⟨rooted, (Tallied.of_adds (Adds.refl _)).weaken (fun _ owned => owned) rfl rfl
      (fun _ => rfl) ?_, fun _ _ => rfl, ?_⟩
    · simp
    · simp
  | cons branch branches ih =>
    rw [List.zipIdx_cons] at yields
    obtain ⟨_, middle, first, rest⟩ := yields_bind yields
    obtain ⟨rooted', one, recorded, others⟩ :=
      materializeBranch_tallied tallies rooted member pending (unused start (le_refl _)) first
    have free : ∀ ordinal, start + 1 ≤ ordinal →
        middle.splitBranchScopes[(id, ordinal)]? = none := by
      intro ordinal above
      rw [others ordinal (by omega)]
      exact unused ordinal (by omega)
    obtain ⟨rooted'', later, below, places⟩ := ih rooted' (one.ids id member)
      ((one.kept member).trans pending) free rest
    refine ⟨rooted'', (one.trans later).weaken (fun _ owned => owned) ?_ rfl (fun _ => rfl) ?_,
      ?_, ?_⟩
    · simp
    · simp
    · intro ordinal less
      rw [below ordinal (by omega), others ordinal (by omega)]
    · intro place other found
      cases place with
      | zero =>
        rw [List.getElem?_cons_zero] at found
        cases found
        rw [Nat.add_zero, below start (by omega)]
        exact recorded
      | succ place =>
        rw [List.getElem?_cons_succ] at found
        have placed := places place other found
        rwa [Nat.add_right_comm, Nat.add_assoc] at placed

/-- The nodes in the flow branches of a node. -/
def FlowNode.Inner (node inner : FlowNode FlowGraph) : Prop :=
  ∃ split, node = .split split ∧ ∃ branch ∈ split.branches, branch.Declares inner

/-- The scopes of a split's flow branches are recorded, and those alone. -/
def Recorded (compiler : AdvancedCompiler) (entry : NodeId × FlowNode FlowGraph) : Prop :=
  ∀ split, entry.2 = .split split → ∀ (ordinal : Nat) (branch : SplitBranch FlowGraph),
    split.branches[ordinal]? = some branch →
      compiler.splitBranchScopes[(entry.1, ordinal)]?.isSome = branch.flow.isSome

private theorem materializeNode_tallied {entry : NodeId × FlowNode FlowGraph}
    (tallies : Tallies descend)
    (rooted : Rooted before) (member : entry.1 ∈ before.allIds)
    (pending : before.nodes[entry.1]? = none)
    (unused : ∀ ordinal : Nat, before.splitBranchScopes[(entry.1, ordinal)]? = none)
    (yields : materializeNode descend declaredEntry localNodes owners entry before =
      .ok (owners', after)) :
    Rooted after ∧
      Tallied (· = entry.1) entry.2.embedded 0 (fun _ => 0) entry.2.Inner before after ∧
      Recorded after entry := by
  obtain ⟨source, node⟩ := entry
  cases node with
  | split split =>
    obtain ⟨_, _, materialized⟩ := materializeSplit_yields yields
    obtain ⟨rooted', tallied, _, recorded⟩ := materializeBranches_tallied tallies rooted member
      pending (fun ordinal _ => unused ordinal) materialized
    refine ⟨rooted', tallied.weaken (fun _ owned => owned) rfl rfl (fun _ => rfl) ?_, ?_⟩
    · simp [FlowNode.Inner]
    · intro other same ordinal branch found
      cases same
      have placed := recorded ordinal branch found
      rwa [Nat.zero_add] at placed
  | partitionedStep node =>
    obtain ⟨_, middle, reserving, ending⟩ := yields_bind yields
    obtain ⟨_, rfl⟩ := yields_pure ending
    have adds := adds_reserveId reserving
    refine ⟨rooted.of_adds adds, (Tallied.of_adds adds).weaken (fun _ owned => owned) rfl rfl
      (fun _ => rfl) ?_, ?_⟩
    · simp [FlowNode.Inner]
    · intro split same
      cases same
  | step _ | decision _ | nestedJob _ | customLeaf _ | join _ =>
    obtain ⟨_, rfl⟩ := yields_pure yields
    refine ⟨rooted, (Tallied.of_adds (Adds.refl _)).weaken (fun _ owned => owned) rfl rfl
      (fun _ => rfl) ?_, ?_⟩
    · simp [FlowNode.Inner]
    · intro split same
      cases same

theorem materializeNodes_tallied {entries : List (NodeId × FlowNode FlowGraph)}
    (tallies : Tallies descend) (rooted : Rooted before) (distinct : (entries.map (·.1)).Nodup)
    (members : ∀ entry ∈ entries, entry.1 ∈ before.allIds)
    (pending : ∀ entry ∈ entries, before.nodes[entry.1]? = none)
    (unused : ∀ entry ∈ entries, ∀ ordinal : Nat,
      before.splitBranchScopes[(entry.1, ordinal)]? = none)
    (yields : entries.foldlM (materializeNode descend declaredEntry localNodes) owners before =
      .ok (owners', after)) :
    Rooted after ∧
      Tallied (· ∈ entries.map (·.1)) (entries.map (·.2.embedded)).sum 0 (fun _ => 0)
        (fun inner => ∃ entry ∈ entries, entry.2.Inner inner) before after ∧
      ∀ entry ∈ entries, Recorded after entry := by
  induction entries generalizing owners before with
  | nil =>
    cases yields
    refine ⟨rooted, (Tallied.of_adds (Adds.refl _)).weaken (fun _ owned => owned) rfl rfl
      (fun _ => rfl) ?_, ?_⟩
    · simp
    · simp
  | cons entry entries ih =>
    rw [List.foldlM_cons] at yields
    obtain ⟨held, middle, first, rest⟩ := yields_bind yields
    obtain ⟨rooted', one, recorded⟩ := materializeNode_tallied tallies rooted
      (members entry List.mem_cons_self) (pending entry List.mem_cons_self)
      (unused entry List.mem_cons_self) first
    obtain ⟨away, distinct'⟩ := List.nodup_cons.mp distinct
    have apart : ∀ other ∈ entries, entry.1 ≠ other.1 := by
      intro other among same
      exact away (List.mem_map.mpr ⟨other, among, same.symm⟩)
    have free : ∀ other ∈ entries, ∀ ordinal : Nat,
        middle.splitBranchScopes[(other.1, ordinal)]? = none := by
      intro other among ordinal
      have later := List.mem_cons_of_mem entry among
      rw [one.keys (other.1, ordinal) (members other later) (Ne.symm (apart other among))]
      exact unused other later ordinal
    obtain ⟨rooted'', later, recorded'⟩ := ih rooted' distinct'
      (fun other among => one.ids _ (members other (List.mem_cons_of_mem _ among)))
      (fun other among => (one.kept (members other (List.mem_cons_of_mem _ among))).trans
        (pending other (List.mem_cons_of_mem _ among))) free rest
    refine ⟨rooted'', ?_, ?_⟩
    · have head : Tallied (· ∈ (entry :: entries).map (·.1)) entry.2.embedded 0 (fun _ => 0)
          entry.2.Inner before middle := by
        refine one.weaken ?_ rfl rfl (fun _ => rfl) fun _ => Iff.rfl
        rintro id rfl
        exact List.mem_cons_self
      have tail := later.weaken (fun id owned => List.mem_cons_of_mem entry.1 owned) rfl rfl
        (fun _ => rfl) fun _ => Iff.rfl
      refine (head.trans tail).weaken (fun _ owned => owned) ?_ rfl (fun _ => rfl) ?_
      · simp
      · simp
    · intro other among
      rcases List.mem_cons.mp among with rfl | old
      · intro split same ordinal branch found
        rw [later.keys (other.1, ordinal) (one.ids _ (members other List.mem_cons_self)) away]
        exact recorded split same ordinal branch found
      · exact recorded' other old

end Materialize

end OxideBatch.Plan
