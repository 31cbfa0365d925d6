import OxideBatch.Plan.Routes
import OxideBatch.Lib.Tables

/-! Which scope a compiled node belongs to: over the whole compilation, the nodes that
are installed are those of the scopes that are recorded. -/

namespace OxideBatch.Plan

open OxideBatch.Core Program Relation
open Std (ExtTreeMap ExtTreeSet)

section Counting

variable {Key : Type} [Ord Key] [Std.TransOrd Key]

/-- How many of the recorded scopes hold a node. -/
def covering (scopes : ExtTreeMap Key CompiledFlowScope) (id : NodeId) : Nat :=
  scopes.toList.countP fun entry => entry.2.members.contains id

def CompiledFlowScope.holds (scope : CompiledFlowScope) (id : NodeId) : Nat :=
  if scope.members.contains id then 1 else 0

def AdvancedCompiler.installs (compiler : AdvancedCompiler) (id : NodeId) : Nat :=
  if compiler.nodes.contains id then 1 else 0

variable {scopes : ExtTreeMap Key CompiledFlowScope} {key : Key} {scope : CompiledFlowScope}

@[simp] theorem covering_empty (id : NodeId) :
    covering (∅ : ExtTreeMap Key CompiledFlowScope) id = 0 := by
  simp [covering]

private theorem covering_insert [Std.LawfulEqOrd Key] [DecidableEq Key]
    (fresh : scopes[key]? = none) (id : NodeId) :
    covering (scopes.insert key scope) id = covering scopes id + scope.holds id := by
  rw [covering, (Tables.toList_insert_perm fresh).countP_eq, List.countP_cons]
  rfl

private theorem covering_pos [Std.LawfulEqOrd Key] {id : NodeId} (found : scopes[key]? = some scope)
    (member : id ∈ scope.members) : 0 < covering scopes id := by
  apply List.countP_pos_iff.mpr
  exact ⟨(key, scope), ExtTreeMap.mem_toList_iff_getElem?_eq_some.mpr found, by simpa using member⟩

private theorem exists_of_covering [Std.LawfulEqOrd Key] {id : NodeId}
    (covered : 0 < covering scopes id) :
    ∃ (key : Key) (scope : CompiledFlowScope),
      scopes[key]? = some scope ∧ id ∈ scope.members := by
  obtain ⟨entry, member, holds⟩ := List.countP_pos_iff.mp covered
  exact ⟨entry.1, entry.2, ExtTreeMap.mem_toList_iff_getElem?_eq_some.mp member, by simpa using holds⟩

/-- Scopes that share no member hold a node at most once. -/
private theorem covering_le_one {id : NodeId} (disjoint : scopes.toList.Pairwise fun left right =>
    ∀ id ∈ left.2.members, id ∉ right.2.members) : covering scopes id ≤ 1 := by
  unfold covering
  generalize scopes.toList = entries at disjoint
  induction entries with
  | nil => simp
  | cons entry entries ih =>
    obtain ⟨apart, rest⟩ := List.pairwise_cons.mp disjoint
    rw [List.countP_cons]
    by_cases here : entry.2.members.contains id = true
    · have none : entries.countP (fun entry => entry.2.members.contains id) = 0 := by
        apply List.countP_eq_zero.mpr
        intro other member
        simpa using apart other member id (by simpa using here)
      simp [here, none]
    · have bound := ih rest
      simpa [here] using bound

private theorem installs_eq_one {compiler : AdvancedCompiler} {id : NodeId}
    (installed : compiler.nodes[id]? ≠ none) : compiler.installs id = 1 := by
  unfold AdvancedCompiler.installs
  rw [if_pos]
  rw [ExtTreeMap.contains_eq_isSome_getElem?]
  exact Option.isSome_iff_ne_none.mpr installed

theorem installs_eq_zero {compiler : AdvancedCompiler} {id : NodeId}
    (absent : compiler.nodes[id]? = none) : compiler.installs id = 0 := by
  simp [AdvancedCompiler.installs, ExtTreeMap.contains_eq_isSome_getElem?, absent]

private theorem installs_congr {before after : AdvancedCompiler} {id : NodeId}
    (same : after.nodes[id]? = before.nodes[id]?) : after.installs id = before.installs id := by
  simp only [AdvancedCompiler.installs, ExtTreeMap.contains_eq_isSome_getElem?, same]

end Counting

section Charted

/-- What holds of the recorded scopes in every plan on the way. -/
structure Mapped (compiler : AdvancedCompiler) : Prop where
  grounded : Grounded compiler
  reserved : ∀ (key : NodeId × Nat) scope, compiler.splitBranchScopes[key]? = some scope →
    key.1 ∈ compiler.allIds
  sound : ∀ (key : NodeId × Nat) scope, compiler.splitBranchScopes[key]? = some scope →
    ScopeSound compiler.nodes compiler.transitions scope
  nested : ∀ (owner : NodeId) record, compiler.nestedRecords[owner]? = some record →
    ∀ id ∈ record.scope.members, compiler.nodes[id]? ≠ none ∧
      ReflTransGen (Follows compiler.nodes compiler.transitions) record.scope.entry id

/-- A part of the compilation that installs, beyond what it records under new split
branches, the nodes counted by `gain`. Only the branches of `own` splits may be new
among the identifiers already reserved. -/
structure Charted (own : NodeId → Prop) (gain : NodeId → Nat) (before after : AdvancedCompiler) :
    Prop where
  extended : Extends before after
  ids : ∀ id ∈ before.allIds, id ∈ after.allIds
  keys : ∀ key : NodeId × Nat, key.1 ∈ before.allIds → ¬ own key.1 →
    after.splitBranchScopes[key]? = before.splitBranchScopes[key]?
  balance : ∀ id, after.installs id + covering before.splitBranchScopes id =
    before.installs id + covering after.splitBranchScopes id + gain id

theorem Charted.of_quiet {own : NodeId → Prop} {before after : AdvancedCompiler}
    (quiet : Quiet before after) : Charted own (fun _ => 0) before after := by
  refine ⟨quiet.same.extends, quiet.ids, ?_, ?_⟩
  · intro key _ _
    rw [quiet.branches]
  · intro id
    have same : after.nodes[id]? = before.nodes[id]? := by rw [quiet.nodes]
    rw [quiet.branches, installs_congr same]
    omega

theorem Charted.trans {own : NodeId → Prop} {gain gain' : NodeId → Nat}
    {first second third : AdvancedCompiler} (left : Charted own gain first second)
    (right : Charted own gain' second third) :
    Charted own (fun id => gain id + gain' id) first third := by
  refine ⟨left.extended.trans right.extended, fun id member => right.ids id (left.ids id member),
    ?_, ?_⟩
  · intro key reserved foreign
    rw [right.keys key (left.ids _ reserved) foreign, left.keys key reserved foreign]
  · intro id
    have one := left.balance id
    have two := right.balance id
    omega

theorem Charted.weaken {own own' : NodeId → Prop} {gain : NodeId → Nat}
    {before after : AdvancedCompiler} (charted : Charted own gain before after)
    (more : ∀ id, own id → own' id) : Charted own' gain before after :=
  ⟨charted.extended, charted.ids,
    fun key reserved foreign => charted.keys key reserved fun owned => foreign (more _ owned),
    charted.balance⟩

theorem Mapped.of_quiet {before after : AdvancedCompiler} (mapped : Mapped before)
    (quiet : Quiet before after) : Mapped after := by
  refine ⟨(quiet.same.grows mapped.grounded).1, ?_, ?_, ?_⟩
  · intro key scope found
    rw [quiet.branches] at found
    exact quiet.ids _ (mapped.reserved key scope found)
  · intro key scope found
    rw [quiet.branches] at found
    rw [quiet.nodes, quiet.transitions]
    exact mapped.sound key scope found
  · intro owner record found
    rw [quiet.records] at found
    rw [quiet.nodes, quiet.transitions]
    exact mapped.nested owner record found

/-- Nodes without an installed declaration are in no recorded scope. -/
theorem Mapped.covering_eq_zero {compiler : AdvancedCompiler} {id : NodeId}
    (mapped : Mapped compiler) (absent : compiler.nodes[id]? = none) :
    covering compiler.splitBranchScopes id = 0 := by
  by_contra covered
  obtain ⟨key, scope, found, member⟩ := exists_of_covering (Nat.pos_of_ne_zero covered)
  exact (mapped.sound key scope found).installed id member absent

/-- Compiling a flow installs the nodes of its scope and records the scopes of all
flow branches behind it. -/
def Charts (compile : FlowGraph → CompilerM CompiledFlowScope) : Prop :=
  ∀ graph before scope after, Mapped before → compile graph before = .ok (scope, after) →
    Mapped after ∧ Charted (fun _ => False) scope.holds before after ∧
      ScopeSound after.nodes after.transitions scope

end Charted

section Nested

variable {descend : FlowGraph → CompilerM CompiledFlowScope}

/-- Nested flows compiled one after the other. -/
structure NestedCharted (before after : AdvancedCompiler) (owners : List NodeId)
    (scopes : NodeMap CompiledFlowScope) : Prop where
  mapped : Mapped after
  charted : Charted (fun _ => False) (covering scopes) before after
  sound : ∀ (owner : NodeId) scope, scopes[owner]? = some scope →
    ScopeSound after.nodes after.transitions scope
  keys : ∀ owner, scopes[owner]? ≠ none → owner ∈ owners

private theorem compileNestedScopes_charted (charts : Charts descend) (mapped : Mapped before)
    (yields : compileNestedScopes descend nested before = .ok (scopes, after)) :
    NestedCharted before after nested.keys scopes := by
  have general : ∀ (rest : List (NodeId × FlowGraph)) (done : List NodeId)
      (held : NodeMap CompiledFlowScope) (middle : AdvancedCompiler),
      (done ++ rest.map (·.1)).Nodup → NestedCharted before middle done held →
      rest.foldlM (compileNestedScope descend) held middle = .ok (scopes, after) →
      NestedCharted before after (done ++ rest.map (·.1)) scopes := by
    intro rest
    induction rest with
    | nil =>
      intro done held middle _ charted ended
      cases ended
      simpa using charted
    | cons flow rest ih =>
      intro done held middle distinct charted ended
      rw [List.foldlM_cons] at ended
      obtain ⟨next, later, first, ended⟩ := yields_bind ended
      obtain ⟨scope, state, compiledOne, ending⟩ := yields_bind first
      obtain ⟨rfl, rfl⟩ := yields_pure ending
      obtain ⟨mapped', one, sound⟩ := charts _ _ _ _ charted.mapped compiledOne
      have unused : held[flow.1]? = none := by
        by_contra present
        have member := charted.keys flow.1 present
        rw [List.map_cons] at distinct
        exact List.disjoint_of_nodup_append distinct member List.mem_cons_self
      have next : NestedCharted before state (done ++ [flow.1]) (held.insert flow.1 scope) := by
        refine ⟨mapped', ?_, ?_, ?_⟩
        · have both := charted.charted.trans one
          refine ⟨both.extended, both.ids, both.keys, fun id => ?_⟩
          rw [covering_insert unused]
          exact both.balance id
        · intro owner other found
          by_cases same : flow.1 = owner
          · subst same
            rw [getElem?_insert_self] at found
            cases found
            exact sound
          · rw [getElem?_insert_ne same] at found
            exact (charted.sound owner other found).later one.extended
        · intro owner present
          by_cases same : flow.1 = owner
          · exact List.mem_append_right _ (by simp [same])
          · rw [getElem?_insert_ne same] at present
            exact List.mem_append_left _ (charted.keys owner present)
      have whole := ih _ _ _ (by simpa using distinct) next ended
      simpa using whole
  have start : NestedCharted before before [] ∅ := by
    refine ⟨mapped, ?_, ?_, ?_⟩
    · have quiet : Charted (fun _ => False) (fun _ => 0) before before :=
        Charted.of_quiet (Quiet.refl _)
      refine ⟨quiet.extended, quiet.ids, quiet.keys, fun id => ?_⟩
      rw [covering_empty]
      exact quiet.balance id
    · intro owner scope found
      simp at found
    · intro owner present
      simp at present
  have distinct : ([] ++ nested.toList.map Prod.fst).Nodup := by
    rw [List.nil_append, ExtTreeMap.map_fst_toList_eq_keys]
    exact ExtTreeMap.nodup_keys
  have whole := general nested.toList [] ∅ before distinct start yields
  rwa [List.nil_append, ExtTreeMap.map_fst_toList_eq_keys] at whole

end Nested

section Materialize

variable {descend : FlowGraph → CompilerM CompiledFlowScope}

/-- Records the scope of a flow branch. -/
def AdvancedCompiler.record (compiler : AdvancedCompiler) (key : NodeId × Nat)
    (scope : CompiledFlowScope) : AdvancedCompiler :=
  { compiler with splitBranchScopes := compiler.splitBranchScopes.insert key scope }

theorem Mapped.record {compiler : AdvancedCompiler} {key : NodeId × Nat} (mapped : Mapped compiler)
    (reserved : key.1 ∈ compiler.allIds)
    (sound : ScopeSound compiler.nodes compiler.transitions scope) :
    Mapped (compiler.record key scope) := by
  refine ⟨mapped.grounded, ?_, ?_, mapped.nested⟩
  · intro other recorded found
    rcases Tables.lookup_insert_cases found with ⟨rfl, _⟩ | ⟨_, old⟩
    · exact reserved
    · exact mapped.reserved other recorded old
  · intro other recorded found
    rcases Tables.lookup_insert_cases found with ⟨_, rfl⟩ | ⟨_, old⟩
    · exact sound
    · exact mapped.sound other recorded old

theorem Charted.record {before after : AdvancedCompiler} {key : NodeId × Nat}
    (charted : Charted (· = key.1) scope.holds before after)
    (unused : after.splitBranchScopes[key]? = none) :
    Charted (· = key.1) (fun _ => 0) before (after.record key scope) := by
  refine ⟨charted.extended, charted.ids, ?_, ?_⟩
  · intro other reserved foreign
    have away : key ≠ other := by
      rintro rfl
      exact foreign rfl
    exact (Tables.lookup_insert.trans (if_neg away)).trans (charted.keys other reserved foreign)
  · intro id
    have balance := charted.balance id
    have recorded : covering (after.record key scope).splitBranchScopes id =
        covering after.splitBranchScopes id + scope.holds id := covering_insert unused id
    have same : (after.record key scope).installs id = after.installs id := rfl
    omega

/-- One branch of a split: a flow branch records its scope under its ordinal. -/
private theorem materializeBranch_charted {id : NodeId} {ordinal : Nat} (charts : Charts descend)
    (mapped : Mapped before) (reserved : id ∈ before.allIds)
    (unused : before.splitBranchScopes[(id, ordinal)]? = none)
    (yields : materializeBranch descend id ordinal branch before = .ok ((), after)) :
    Mapped after ∧ Charted (· = id) (fun _ => 0) before after ∧ ∀ other, other ≠ ordinal →
      after.splitBranchScopes[(id, other)]? = before.splitBranchScopes[(id, other)]? := by
  obtain ⟨_, counted, counting, toCheck⟩ := yields_bind yields
  have countedQuiet : Quiet before counted := by
    cases counting
    exact ⟨rfl, rfl, rfl, rfl, fun _ member => member⟩
  obtain ⟨_, checked, checking, toBranch⟩ := yields_bind toCheck
  have quiet := countedQuiet.trans (quiet_checkMaterializedNodes _ _ _ checking)
  cases flow : branch.flow with
  | none =>
    rw [flow] at toBranch
    dsimp only at toBranch
    split at toBranch
    · cases toBranch
    · have all := quiet.trans (Keeps.forM Quiet.refl Quiet.trans
        (fun step : StepNode => quiet_reserveId step.id) _ _ _ _ toBranch)
      refine ⟨mapped.of_quiet all, Charted.of_quiet all, fun other _ => ?_⟩
      rw [all.branches]
  | some graph =>
    rw [flow] at toBranch
    obtain ⟨scope, compiled, compiling, recording⟩ := yields_bind toBranch
    cases recording
    obtain ⟨mapped', charted, sound⟩ := charts _ _ _ _ (mapped.of_quiet quiet) compiling
    have whole : Charted (· = id) scope.holds before compiled := by
      have weakened : Charted (· = id) scope.holds checked compiled :=
        charted.weaken fun _ => False.elim
      have both := (Charted.of_quiet quiet).trans weakened
      refine ⟨both.extended, both.ids, both.keys, fun other => ?_⟩
      have balance := both.balance other
      omega
    have kept : ∀ other : Nat, compiled.splitBranchScopes[(id, other)]? =
        before.splitBranchScopes[(id, other)]? := by
      intro other
      rw [charted.keys (id, other) (quiet.ids id reserved) not_false, quiet.branches]
    have free : compiled.splitBranchScopes[(id, ordinal)]? = none := (kept ordinal).trans unused
    refine ⟨mapped'.record (whole.ids id reserved) sound, whole.record free, fun other different => ?_⟩
    have away : (id, ordinal) ≠ (id, other) := by
      intro same
      exact different (Prod.mk.inj same).2.symm
    exact (Tables.lookup_insert.trans (if_neg away)).trans (kept other)

/-- The branches of a split, under ordinals that are still free. -/
private theorem materializeBranches_charted {id : NodeId} {branches : List (SplitBranch FlowGraph)}
    {start : Nat} (charts : Charts descend) (mapped : Mapped before)
    (reserved : id ∈ before.allIds)
    (unused : ∀ ordinal, start ≤ ordinal → before.splitBranchScopes[(id, ordinal)]? = none)
    (yields : (branches.zipIdx start).forM
      (fun branch => materializeBranch descend id branch.2 branch.1) before = .ok ((), after)) :
    Mapped after ∧ Charted (· = id) (fun _ => 0) before after := by
  induction branches generalizing start before with
  | nil =>
    cases yields
    exact ⟨mapped, Charted.of_quiet (Quiet.refl _)⟩
  | cons branch branches ih =>
    rw [List.zipIdx_cons] at yields
    obtain ⟨_, middle, first, rest⟩ := yields_bind yields
    obtain ⟨mapped', one, others⟩ :=
      materializeBranch_charted charts mapped reserved (unused start (le_refl _)) first
    have free : ∀ ordinal, start + 1 ≤ ordinal →
        middle.splitBranchScopes[(id, ordinal)]? = none := by
      intro ordinal above
      rw [others ordinal (by omega)]
      exact unused ordinal (by omega)
    obtain ⟨mapped'', later⟩ := ih mapped' (one.ids id reserved) free rest
    exact ⟨mapped'', one.trans later⟩

/-- A node of the scope: only a split records scopes, and only its own. -/
private theorem materializeNode_charted {entry : NodeId × FlowNode FlowGraph}
    (charts : Charts descend)
    (mapped : Mapped before) (reserved : entry.1 ∈ before.allIds)
    (unused : ∀ ordinal : Nat, before.splitBranchScopes[(entry.1, ordinal)]? = none)
    (yields : materializeNode descend declaredEntry localNodes owners entry before =
      .ok (owners', after)) :
    Mapped after ∧ Charted (· = entry.1) (fun _ => 0) before after := by
  obtain ⟨source, node⟩ := entry
  have still : ∀ {result : AdvancedCompiler}, Quiet before result →
      Mapped result ∧ Charted (· = source) (fun _ => 0) before result :=
    fun quiet => ⟨mapped.of_quiet quiet, Charted.of_quiet quiet⟩
  cases node with
  | split split =>
    obtain ⟨_, _, materialized⟩ := materializeSplit_yields yields
    exact materializeBranches_charted charts mapped reserved (fun ordinal _ => unused ordinal)
      materialized
  | partitionedStep node =>
    obtain ⟨_, middle, reserving, ending⟩ := yields_bind yields
    obtain ⟨_, rfl⟩ := yields_pure ending
    exact still (quiet_reserveId _ _ _ _ reserving)
  | step _ | decision _ | nestedJob _ | customLeaf _ | join _ =>
    obtain ⟨_, rfl⟩ := yields_pure yields
    exact still (Quiet.refl _)

private theorem materializeNodes_charted {entries : List (NodeId × FlowNode FlowGraph)}
    (charts : Charts descend) (mapped : Mapped before) (distinct : (entries.map (·.1)).Nodup)
    (reserved : ∀ entry ∈ entries, entry.1 ∈ before.allIds)
    (unused : ∀ entry ∈ entries, ∀ ordinal : Nat,
      before.splitBranchScopes[(entry.1, ordinal)]? = none)
    (yields : entries.foldlM (materializeNode descend declaredEntry localNodes) owners before =
      .ok (owners', after)) :
    Mapped after ∧ Charted (· ∈ entries.map (·.1)) (fun _ => 0) before after := by
  induction entries generalizing owners before with
  | nil =>
    cases yields
    exact ⟨mapped, Charted.of_quiet (Quiet.refl _)⟩
  | cons entry entries ih =>
    rw [List.foldlM_cons] at yields
    obtain ⟨held, middle, first, rest⟩ := yields_bind yields
    obtain ⟨mapped', one⟩ := materializeNode_charted charts mapped (reserved entry List.mem_cons_self)
      (unused entry List.mem_cons_self) first
    obtain ⟨away, distinct'⟩ := List.nodup_cons.mp distinct
    have free : ∀ other ∈ entries, ∀ ordinal : Nat,
        middle.splitBranchScopes[(other.1, ordinal)]? = none := by
      intro other member ordinal
      have later := List.mem_cons_of_mem entry member
      rw [one.keys (other.1, ordinal) (reserved other later)]
      · exact unused other later ordinal
      · intro same
        exact away (List.mem_map.mpr ⟨other, member, same⟩)
    obtain ⟨mapped'', later⟩ := ih mapped' distinct'
      (fun other member => one.ids _ (reserved other (List.mem_cons_of_mem _ member))) free rest
    refine ⟨mapped'', (one.weaken ?_).trans (later.weaken ?_)⟩
    · rintro id rfl
      simp
    · intro id member
      exact List.mem_cons_of_mem _ member

private theorem materializeLocalStructure_charted (charts : Charts descend) (mapped : Mapped before)
    (reserved : ∀ id ∈ localNodes.keys, id ∈ before.allIds)
    (unused : ∀ id ∈ localNodes.keys, ∀ ordinal : Nat,
      before.splitBranchScopes[(id, ordinal)]? = none)
    (yields : materializeLocalStructure descend declaredEntry localNodes before = .ok ((), after)) :
    Mapped after ∧ Charted (· ∈ localNodes.keys) (fun _ => 0) before after := by
  obtain ⟨owners, folded, _⟩ := materializeLocalStructure_yields yields
  have keys : localNodes.toList.map Prod.fst = localNodes.keys :=
    ExtTreeMap.map_fst_toList_eq_keys
  have among : ∀ entry ∈ localNodes.toList, entry.1 ∈ localNodes.keys := by
    intro entry member
    rw [← keys]
    exact List.mem_map_of_mem member
  have result := materializeNodes_charted charts mapped (by rw [keys]; exact ExtTreeMap.nodup_keys)
    (fun entry member => reserved _ (among entry member))
    (fun entry member => unused _ (among entry member)) folded
  rwa [keys] at result

end Materialize

section Owners

variable {descend : FlowGraph → CompilerM CompiledFlowScope}

/-- A node takes its join if it is a split, and the join had no owner. -/
structure Owning (entry : NodeId × FlowNode FlowGraph) (owners owners' : NodeMap NodeId) : Prop where
  split : ∀ join, entry.2.splitJoin? = some join →
    owners[join]? = none ∧ owners' = owners.insert join entry.1
  single : entry.2.splitJoin? = none → owners' = owners

/-- Nodes that take their joins one after the other. -/
inductive OwningAll : List (NodeId × FlowNode FlowGraph) → NodeMap NodeId → NodeMap NodeId → Prop where
  | nil : OwningAll [] owners owners
  | cons : Owning entry owners middle → OwningAll entries middle owners' →
      OwningAll (entry :: entries) owners owners'

/-- The owners behind a list of nodes are those of before and the splits among them. -/
theorem OwningAll.lookup (owning : OwningAll entries owners owners') :
    (∀ (join owner : NodeId), owners[join]? = some owner → owners'[join]? = some owner) ∧
      (∀ entry ∈ entries, ∀ join, entry.2.splitJoin? = some join → owners'[join]? = some entry.1) ∧
      ∀ (join owner : NodeId), owners'[join]? = some owner → owners[join]? = some owner ∨
        ∃ entry ∈ entries, entry.1 = owner ∧ entry.2.splitJoin? = some join := by
  induction owning with
  | nil => exact ⟨fun _ _ => id, by simp, fun _ _ => .inl⟩
  | @cons entry owners middle entries owners' first _ ih =>
    obtain ⟨kept, added, origin⟩ := ih
    cases splits : entry.2.splitJoin? with
    | none =>
      obtain rfl := first.single splits
      refine ⟨kept, ?_, ?_⟩
      · intro other member join same
        rcases List.mem_cons.mp member with rfl | later
        · rw [splits] at same
          cases same
        · exact added other later join same
      · intro join owner found
        rcases origin join owner found with old | ⟨other, member, rest⟩
        · exact .inl old
        · exact .inr ⟨other, List.mem_cons_of_mem _ member, rest⟩
    | some own =>
      obtain ⟨free, rfl⟩ := first.split own splits
      refine ⟨?_, ?_, ?_⟩
      · intro join owner found
        apply kept
        have away : own ≠ join := by
          rintro rfl
          rw [free] at found
          cases found
        rwa [getElem?_insert_ne away]
      · intro other member join same
        rcases List.mem_cons.mp member with rfl | later
        · cases splits.symm.trans same
          exact kept _ _ (getElem?_insert_self _ _ _)
        · exact added other later join same
      · intro join owner found
        rcases origin join owner found with old | ⟨other, member, rest⟩
        · by_cases same : own = join
          · subst same
            rw [getElem?_insert_self] at old
            cases old
            exact .inr ⟨entry, List.mem_cons_self, rfl, splits⟩
          · rw [getElem?_insert_ne same] at old
            exact .inl old
        · exact .inr ⟨other, List.mem_cons_of_mem _ member, rest⟩

/-- Every declared join belongs to one declared split. -/
structure JoinsOwned (localNodes : NodeMap (FlowNode FlowGraph)) : Prop where
  owned : ∀ (join : NodeId) node, localNodes[join]? = some node → node.isJoin = true →
    ∃ (split : NodeId) (owner : FlowNode FlowGraph), localNodes[split]? = some owner ∧
      owner.splitJoin? = some join
  unique : ∀ (first second : NodeId) (one two : FlowNode FlowGraph) (join : NodeId),
    localNodes[first]? = some one → localNodes[second]? = some two →
    one.splitJoin? = some join → two.splitJoin? = some join → first = second

theorem OwningAll.joinsOwned {localNodes : NodeMap (FlowNode FlowGraph)}
    (owning : OwningAll localNodes.toList ∅ owners)
    (noOrphan : ∀ entry ∈ localNodes.toList, entry.2.isJoin = true →
      owners.contains entry.1 = true) : JoinsOwned localNodes := by
  obtain ⟨_, added, origin⟩ := owning.lookup
  constructor
  · intro join node found joins
    have contained := noOrphan _ (ExtTreeMap.mem_toList_iff_getElem?_eq_some.mpr found) joins
    obtain ⟨owner, held⟩ := Option.isSome_iff_exists.mp
      ((ExtTreeMap.contains_eq_isSome_getElem? ..).symm.trans contained)
    rcases origin join owner held with old | ⟨entry, member, _, splits⟩
    · simp at old
    · exact ⟨entry.1, entry.2, ExtTreeMap.mem_toList_iff_getElem?_eq_some.mp member, splits⟩
  · intro first second one two join foundOne foundTwo splitsOne splitsTwo
    have left := added _ (ExtTreeMap.mem_toList_iff_getElem?_eq_some.mpr foundOne) join splitsOne
    have right := added _ (ExtTreeMap.mem_toList_iff_getElem?_eq_some.mpr foundTwo) join splitsTwo
    exact Option.some.inj (left.symm.trans right)

private theorem materializeNode_owning {entry : NodeId × FlowNode FlowGraph}
    (yields : materializeNode descend declaredEntry localNodes owners entry before =
      .ok (owners', after)) : Owning entry owners owners' := by
  obtain ⟨source, node⟩ := entry
  cases node with
  | split split =>
    obtain ⟨accepted, taken, _⟩ := materializeSplit_yields yields
    constructor
    · intro join same
      cases same
      exact ⟨accepted.unowned, taken⟩
    · intro single
      cases single
  | partitionedStep node =>
    obtain ⟨_, middle, reserving, ending⟩ := yields_bind yields
    obtain ⟨rfl, _⟩ := yields_pure ending
    exact ⟨fun join same => (nomatch same), fun _ => rfl⟩
  | step _ | decision _ | nestedJob _ | customLeaf _ | join _ =>
    obtain ⟨rfl, _⟩ := yields_pure yields
    exact ⟨fun join same => (nomatch same), fun _ => rfl⟩

private theorem materializeNodes_owning {entries : List (NodeId × FlowNode FlowGraph)}
    (yields : entries.foldlM (materializeNode descend declaredEntry localNodes) owners before =
      .ok (owners', after)) : OwningAll entries owners owners' := by
  induction entries generalizing owners before with
  | nil =>
    cases yields
    exact .nil
  | cons entry entries ih =>
    rw [List.foldlM_cons] at yields
    obtain ⟨held, middle, first, rest⟩ := yields_bind yields
    exact .cons (materializeNode_owning first) (ih rest)

private theorem materializeLocalStructure_owned
    (yields : materializeLocalStructure descend declaredEntry localNodes before = .ok ((), after)) :
    JoinsOwned localNodes := by
  obtain ⟨owners, folded, noOrphan⟩ := materializeLocalStructure_yields yields
  exact (materializeNodes_owning folded).joinsOwned noOrphan

end Owners

section Assembled

variable {graph : FlowGraph} {before middle after : AdvancedCompiler} {prepared : PreparedScope}
  {nestedScopes : NodeMap CompiledFlowScope} {partitions : Edges × Edges} {scope : CompiledFlowScope}

namespace Assembled

/-- A node of the scope itself, or a member of one nested scope. -/
private theorem member_cases {id : NodeId}
    (assembled : Assembled graph before middle after prepared nestedScopes partitions scope)
    (member : id ∈ scope.members) :
    (∃ node, prepared.localNodes[id]? = some node ∧ after.nodes[id]? = some node) ∨
      ∃ (owner : NodeId) (inner : CompiledFlowScope), nestedScopes[owner]? = some inner ∧
        id ∈ inner.members ∧ after.nodes[id]? = middle.nodes[id]? := by
  rcases (assembled.members id).mp member with own | ⟨owner, inner, found, inside⟩
  · obtain ⟨node, here⟩ := Option.ne_none_iff_exists'.mp own
    exact .inl ⟨node, here, assembled.localNode id node here⟩
  · exact .inr ⟨owner, inner, found, inside,
      assembled.otherNode id (assembled.notLocal found inside)⟩

/-- No declared node of the scope is the owner of a nested scope. -/
private theorem not_owner {id : NodeId} {node : FlowNode FlowGraph}
    (assembled : Assembled graph before middle after prepared nestedScopes partitions scope)
    (here : prepared.localNodes[id]? = some node) : nestedScopes.contains id = false := by
  by_contra owner
  rw [Bool.not_eq_false, ExtTreeMap.contains_eq_isSome_getElem?] at owner
  obtain ⟨inner, found⟩ := Option.isSome_iff_exists.mp owner
  obtain ⟨flow, member, _⟩ := assembled.nested.each id inner found
  have nested : prepared.nested.contains id = true := by
    rw [ExtTreeMap.contains_eq_isSome_getElem?,
      ExtTreeMap.mem_toList_iff_getElem?_eq_some.mp member]
    rfl
  have absent := assembled.ready.apart id nested
  rw [ExtTreeMap.contains_eq_isSome_getElem?, here] at absent
  cases absent

/-- An edge of a declared node is a declared transition with its target resolved. -/
private theorem local_edge {id : NodeId} {node : FlowNode FlowGraph} {edge : FlowTransition}
    (assembled : Assembled graph before middle after prepared nestedScopes partitions scope)
    (here : prepared.localNodes[id]? = some node) (held : edge ∈ edgesOf after.transitions id) :
    ∃ transition ∈ prepared.transitions, transition.source = id ∧
      edge = resolveEdge nestedScopes transition := by
  rw [edgesOf, assembled.localEdges id node here] at held
  cases outgoing : partitions.1[id]? with
  | none =>
    rw [outgoing] at held
    cases held
  | some edges =>
    rw [outgoing] at held
    have mapped := (sortTransitions_perm _).mem_iff.mp held
    obtain ⟨transition, present, rfl⟩ := List.mem_map.mp mapped
    have filtered := assembled.partitioned.outgoing id (assembled.not_owner here)
    rw [edgesOf, outgoing] at filtered
    rw [Option.getD_some] at filtered
    rw [filtered] at present
    obtain ⟨declared, same⟩ := List.mem_filter.mp present
    exact ⟨transition, declared, by simpa using same, rfl⟩

theorem validateTransition_join {transition : FlowTransition} {id : NodeId}
    {localNodes : NodeMap (FlowNode FlowGraph)} {nested : NodeMap CompiledFlowScope}
    (valid : validateTransition transition localNodes nested = .ok ())
    (target : transition.target = .node id) : ¬ IsJoin localNodes id := by
  unfold validateTransition at valid
  dsimp only at valid
  split at valid
  · cases valid
  · rw [target] at valid
    dsimp only at valid
    split at valid
    · cases valid
    · split at valid
      · cases valid
      · rename_i clear_
        exact clear_

theorem validateTransition_bare {transition : FlowTransition}
    {localNodes : NodeMap (FlowNode FlowGraph)} {nested : NodeMap CompiledFlowScope}
    (valid : validateTransition transition localNodes nested = .ok ()) :
    localNodes[transition.source]?.bind (·.splitJoin?) = none := by
  unfold validateTransition at valid
  dsimp only at valid
  split at valid
  · cases valid
  · split at valid
    · split at valid
      · cases valid
      · split at valid
        · cases valid
        · split at valid
          · cases valid
          · rename_i single
            simpa using single
    · split at valid
      · cases valid
      · rename_i single
        simpa using single

/-- A resolved target is no join: neither a declared one nor the entry of a nested scope. -/
private theorem resolved_not_join {transition : FlowTransition} {target : NodeId}
    (assembled : Assembled graph before middle after prepared nestedScopes partitions scope)
    (sound : ∀ (owner : NodeId) inner, nestedScopes[owner]? = some inner →
      ScopeSound middle.nodes middle.transitions inner)
    (declared : transition ∈ prepared.transitions)
    (leads : (resolveEdge nestedScopes transition).target = .node target) :
    ¬ IsJoin after.nodes target := by
  have valid := assembled.partitioned.valid transition declared
  unfold resolveEdge at leads
  dsimp only at leads
  cases declaredTarget : transition.target with
  | terminal kind =>
    rw [declaredTarget] at leads
    cases leads
  | node id =>
    rw [declaredTarget] at leads
    cases nested : nestedScopes[id]? with
    | some inner =>
      simp only [resolveNestedTarget, nested, Option.map_some, Option.getD_some,
        FlowTarget.node.injEq] at leads
      subst leads
      have innerSound := sound id inner nested
      have same := assembled.otherNode _ (assembled.notLocal nested innerSound.entry)
      rw [IsJoin, same]
      exact innerSound.entry_not_join
    | none =>
      simp only [resolveNestedTarget, nested, Option.map_none, Option.getD_none,
        FlowTarget.node.injEq] at leads
      subst leads
      have notNested : nestedScopes.contains id = false := by
        rw [ExtTreeMap.contains_eq_isSome_getElem?, nested]
        rfl
      have known := validateTransition_target valid declaredTarget
      rw [notNested] at known
      have here : prepared.localNodes.contains id = true := by simpa using known
      rw [ExtTreeMap.contains_eq_isSome_getElem?] at here
      obtain ⟨node, found⟩ := Option.isSome_iff_exists.mp here
      have clear_ := validateTransition_join valid declaredTarget
      rw [IsJoin, found] at clear_
      rw [IsJoin, assembled.localNode id node found]
      exact clear_

/-- A split keeps the edges it was declared with: none. -/
private theorem split_bare {split join : NodeId}
    (assembled : Assembled graph before middle after prepared nestedScopes partitions scope)
    (sound : ∀ (owner : NodeId) inner, nestedScopes[owner]? = some inner →
      ScopeSound middle.nodes middle.transitions inner)
    (member : split ∈ scope.members) (splits : Splits after.nodes split join) :
    edgesOf after.transitions split = [] := by
  rcases assembled.member_cases member with ⟨node, here, present⟩ |
      ⟨owner, inner, found, inside, same⟩
  · apply List.eq_nil_iff_forall_not_mem.mpr
    intro edge held
    obtain ⟨transition, declared, rfl, _⟩ := assembled.local_edge here held
    have single := validateTransition_bare (assembled.partitioned.valid transition declared)
    rw [Splits, present] at splits
    rw [here] at single
    rw [single] at splits
    cases splits
  · rw [Splits, same] at splits
    have none := (sound owner inner found).bare split inside join splits
    have rewritten := assembled.memberEdges owner inner found split inside
    unfold Rewritten at rewritten
    rw [edgesOf] at none ⊢
    cases old : middle.transitions[split]? with
    | none =>
      rw [old] at rewritten
      dsimp only at rewritten
      rw [rewritten]
      rfl
    | some edges =>
      rw [old] at rewritten none
      rw [Option.getD_some] at none
      subst none
      obtain ⟨edges', mapped, new⟩ := rewritten
      cases mapped
      rw [new]
      rfl

/-- An edge of a nested member is an old one, or one that leads where an exit of its
owner leads. -/
private theorem member_edge {owner id target : NodeId} {inner : CompiledFlowScope}
    {edge : FlowTransition}
    (assembled : Assembled graph before middle after prepared nestedScopes partitions scope)
    (found : nestedScopes[owner]? = some inner) (inside : id ∈ inner.members)
    (held : edge ∈ edgesOf after.transitions id) (leads : edge.target = .node target) :
    edge ∈ edgesOf middle.transitions id ∨ ∃ transition ∈ prepared.transitions,
      (resolveEdge nestedScopes transition).target = .node target := by
  have rewritten := assembled.memberEdges owner inner found id inside
  unfold Rewritten at rewritten
  rw [edgesOf] at held ⊢
  cases old : middle.transitions[id]? with
  | none =>
    rw [old] at rewritten
    dsimp only at rewritten
    rw [rewritten] at held
    cases held
  | some edges =>
    rw [old] at rewritten
    obtain ⟨edges', mapped, new⟩ := rewritten
    rw [new] at held
    obtain ⟨previous, present, rewrote⟩ := mapM_member (mapM_ok mapped) held
    unfold rewriteEdge at rewrote
    split at rewrote
    · cases rewrote
      exact .inl present
    · split at rewrote
      · rename_i selected chosen
        cases rewrote
        have among := List.mem_of_find?_eq_some chosen
        obtain ⟨exit, sorted, rfl⟩ := List.mem_map.mp among
        have declared := (sortTransitions_perm _).mem_iff.mp sorted
        rw [assembled.partitioned.exits owner (contains_owner found)] at declared
        exact .inr ⟨exit, List.mem_of_mem_filter declared, leads⟩
      · cases rewrote

/-- Moves are only added: a terminal edge may become one to a node. -/
private theorem follows_mono {source target : NodeId}
    (assembled : Assembled graph before middle after prepared nestedScopes partitions scope)
    (moves : Follows middle.nodes middle.transitions source target) :
    Follows after.nodes after.transitions source target := by
  have installed : middle.nodes[source]? ≠ none := by
    intro absent
    rcases moves with splits | ⟨edge, held, _⟩
    · rw [Splits, absent] at splits
      cases splits
    · rw [edgesOf, assembled.nested.grounded source absent] at held
      cases held
  have foreign : prepared.localNodes[source]? = none := by
    cases here : prepared.localNodes[source]? with
    | none => rfl
    | some node => exact absurd (assembled.fresh source node here) installed
  rcases moves with splits | ⟨edge, held, leads⟩
  · rw [Splits, ← assembled.otherNode source foreign] at splits
    exact .inl splits
  · refine .inr ⟨edge, ?_, leads⟩
    by_cases nested : ∃ (owner : NodeId) (inner : CompiledFlowScope),
        nestedScopes[owner]? = some inner ∧ source ∈ inner.members
    · obtain ⟨owner, inner, found, inside⟩ := nested
      have rewritten := assembled.memberEdges owner inner found source inside
      unfold Rewritten at rewritten
      rw [edgesOf] at held ⊢
      cases old : middle.transitions[source]? with
      | none =>
        rw [old] at held
        cases held
      | some edges =>
        rw [old] at rewritten held
        obtain ⟨edges', mapped, new⟩ := rewritten
        rw [new]
        obtain ⟨result, present, rewrote⟩ := mapM_result (mapM_ok mapped) held
        rw [rewriteEdge, leads] at rewrote
        cases rewrote
        exact present
    · have away : ∀ (owner : NodeId) inner, nestedScopes[owner]? = some inner →
          source ∉ inner.members :=
        fun owner inner found inside => nested ⟨owner, inner, found, inside⟩
      rw [edgesOf, assembled.otherEdges source foreign away]
      exact held

/-- The scope that was put together is sound where the nested scopes are. -/
theorem isSound
    (assembled : Assembled graph before middle after prepared nestedScopes partitions scope)
    (owned : JoinsOwned prepared.localNodes)
    (sound : ∀ (owner : NodeId) inner, nestedScopes[owner]? = some inner →
      ScopeSound middle.nodes middle.transitions inner) :
    ScopeSound after.nodes after.transitions scope := by
  -- a split and its join are declared together, or members of one nested scope
  have joinOf : ∀ split ∈ scope.members, ∀ join, Splits after.nodes split join →
      (∃ owner node, prepared.localNodes[split]? = some owner ∧ owner.splitJoin? = some join ∧
        prepared.localNodes[join]? = some node ∧ node.isJoin = true) ∨
      ∃ (owner : NodeId) (inner : CompiledFlowScope), nestedScopes[owner]? = some inner ∧
        split ∈ inner.members ∧ join ∈ inner.members ∧ Splits middle.nodes split join := by
    intro split member join splits
    rcases assembled.member_cases member with ⟨node, here, present⟩ |
        ⟨owner, inner, found, inside, same⟩
    · rw [Splits, present] at splits
      obtain ⟨joined, declared, joins⟩ := assembled.joins split node join here splits
      exact .inl ⟨node, joined, here, splits, declared, joins⟩
    · rw [Splits, same] at splits
      exact .inr ⟨owner, inner, found, inside,
        (sound owner inner found).closed split inside join (.inl splits), splits⟩
  have nestedMember : ∀ (owner : NodeId) (inner : CompiledFlowScope) (id : NodeId),
      nestedScopes[owner]? = some inner → id ∈ inner.members →
      id ∈ scope.members ∧ after.nodes[id]? = middle.nodes[id]? := by
    intro owner inner id found inside
    exact ⟨(assembled.members id).mpr (.inr ⟨owner, inner, found, inside⟩),
      assembled.otherNode id (assembled.notLocal found inside)⟩
  have insideJoin : ∀ split ∈ scope.members, ∀ join, Splits after.nodes split join →
      join ∈ scope.members := by
    intro split member join splits
    rcases joinOf split member join splits with ⟨_, node, _, _, declared, _⟩ |
        ⟨owner, inner, found, _, inside, _⟩
    · exact (assembled.members join).mpr (.inl (by rw [declared]; simp))
    · exact (nestedMember owner inner join found inside).1
  have bare : ∀ split ∈ scope.members, ∀ join, Splits after.nodes split join →
      edgesOf after.transitions split = [] :=
    fun split member join splits => assembled.split_bare sound member splits
  obtain ⟨installed, closed, reached, finite⟩ :=
    validateScope_routes assembled.valid insideJoin bare
  refine ⟨(validateScope_valid assembled.valid).1, installed, closed, reached, finite, bare,
    ?_, ?_, ?_⟩
  · intro split member join splits
    rcases joinOf split member join splits with ⟨_, node, _, _, declared, joins⟩ |
        ⟨owner, inner, found, isSplit, isJoin, old⟩
    · rw [IsJoin, assembled.localNode join node declared]
      exact joins
    · rw [IsJoin, (nestedMember owner inner join found isJoin).2]
      exact (sound owner inner found).joined split isSplit join old
  · intro join member joins
    rcases assembled.member_cases member with ⟨node, here, present⟩ |
        ⟨owner, inner, found, inside, same⟩
    · rw [IsJoin, present] at joins
      obtain ⟨split, splitNode, declared, splits⟩ := owned.owned join node here joins
      refine ⟨split, (assembled.members split).mpr (.inl (by rw [declared]; simp)), ?_, ?_⟩
      · rw [Splits, assembled.localNode split splitNode declared]
        exact splits
      · intro other otherMember otherSplits
        rcases joinOf other otherMember join otherSplits with ⟨otherNode, _, found, splits', _⟩ |
            ⟨owner, inner, found, _, inside, _⟩
        · exact owned.unique other split otherNode splitNode join found declared splits' splits
        · rw [assembled.notLocal found inside] at here
          cases here
    · rw [IsJoin, same] at joins
      obtain ⟨split, isSplit, splits, only⟩ := (sound owner inner found).owned join inside joins
      obtain ⟨splitMember, splitSame⟩ := nestedMember owner inner split found isSplit
      refine ⟨split, splitMember, ?_, ?_⟩
      · rw [Splits, splitSame]
        exact splits
      · intro other otherMember otherSplits
        rcases joinOf other otherMember join otherSplits with ⟨_, _, _, _, declared, _⟩ |
            ⟨owner', inner', found', isSplit', inside', splits'⟩
        · rw [assembled.notLocal found inside] at declared
          cases declared
        · by_cases sameOwner : owner' = owner
          · subst sameOwner
            cases found.symm.trans found'
            exact only other isSplit' splits'
          · exact absurd inside
              (assembled.nested.disjoint owner' owner inner' inner found' found sameOwner join inside')
  · intro source member edge held target leads
    rcases assembled.member_cases member with ⟨node, here, present⟩ |
        ⟨owner, inner, found, inside, same⟩
    · obtain ⟨transition, declared, _, rfl⟩ := assembled.local_edge here held
      exact assembled.resolved_not_join sound declared leads
    · rcases assembled.member_edge found inside held leads with old | ⟨transition, declared, resolved⟩
      · have clear := (sound owner inner found).entered source inside edge old target leads
        have targetInside := (sound owner inner found).closed source inside target
          (.inr ⟨edge, old, leads⟩)
        rw [IsJoin, (nestedMember owner inner target found targetInside).2]
        exact clear
      · exact assembled.resolved_not_join sound declared resolved

end Assembled

end Assembled

section Compile

variable {descend : FlowGraph → CompilerM CompiledFlowScope} {graph : FlowGraph}
  {before first second middle third fourth after : AdvancedCompiler} {prepared : PreparedScope}
  {nestedScopes : NodeMap CompiledFlowScope} {partitions : Edges × Edges} {nestedExits : Edges}
  {scope : CompiledFlowScope}

/-- The parts of `compile_scope` before its own nodes are installed. -/
theorem Stages.inner_charted (charts : Charts descend) (mapped : Mapped before)
    (stages : Stages descend graph before first second middle third fourth after prepared
      nestedScopes partitions nestedExits scope) :
    Mapped middle ∧
      Charted (· ∈ prepared.localNodes.keys) (covering nestedScopes) before middle ∧
      ∀ (owner : NodeId) inner, nestedScopes[owner]? = some inner →
        ScopeSound middle.nodes middle.transitions inner := by
  obtain ⟨_, quiet, reserved⟩ := prepareScope_prepared stages.preparing
  have nested := compileNestedScopes_charted charts (mapped.of_quiet quiet) stages.nesting
  have own : ∀ id ∈ prepared.localNodes.keys, id ∉ before.allIds ∧ id ∈ first.allIds :=
    fun id member => reserved id (List.mem_append_left _ member)
  have unused : ∀ id ∈ prepared.localNodes.keys, ∀ ordinal : Nat,
      second.splitBranchScopes[(id, ordinal)]? = none := by
    intro id member ordinal
    obtain ⟨free, taken⟩ := own id member
    rw [nested.charted.keys (id, ordinal) taken not_false, quiet.branches]
    by_contra present
    obtain ⟨recorded, found⟩ := Option.ne_none_iff_exists'.mp present
    exact free (mapped.reserved (id, ordinal) recorded found)
  obtain ⟨mapped', structured⟩ := materializeLocalStructure_charted charts nested.mapped
    (fun id member => nested.charted.ids id (own id member).2) unused stages.materializing
  have inner : Charted (· ∈ prepared.localNodes.keys) (covering nestedScopes) first second :=
    nested.charted.weaken fun _ => False.elim
  refine ⟨mapped', ?_, ?_⟩
  · have whole := ((Charted.of_quiet quiet).trans inner).trans structured
    refine ⟨whole.extended, whole.ids, whole.keys, fun id => ?_⟩
    have balance := whole.balance id
    omega
  · intro owner nestedScope found
    exact (nested.sound owner nestedScope found).later structured.extended

/-- A node of a nested scope is in no scope recorded so far. -/
private theorem not_recorded {key : NodeId × Nat} {recorded inner : CompiledFlowScope}
    {id owner : NodeId}
    (mapped : Mapped before) (mapped' : Mapped middle)
    (charted : Charted (· ∈ prepared.localNodes.keys) (covering nestedScopes) before middle)
    (fresh : before.nodes[id]? = none) (found : nestedScopes[owner]? = some inner)
    (inside : id ∈ inner.members) (present : middle.splitBranchScopes[key]? = some recorded) :
    id ∉ recorded.members := by
  intro member
  have balance := charted.balance id
  have installed := (mapped'.sound key recorded present).installed id member
  rw [mapped.covering_eq_zero fresh, installs_eq_zero fresh, installs_eq_one installed] at balance
  have nested := covering_pos found inside
  have covered := covering_pos present member
  omega

theorem Stages.mapped (charts : Charts descend) (compiles : Compiles descend)
    (mapped : Mapped before)
    (stages : Stages descend graph before first second middle third fourth after prepared
      nestedScopes partitions nestedExits scope) : Mapped after := by
  have assembled := stages.assembled compiles mapped.grounded
  obtain ⟨mapped', charted, sound⟩ := stages.inner_charted charts mapped
  have normalized := normalizeNestedBoundary_all assembled.nested.pairwise stages.normalizing
  have installed := install_installed stages.installing stages.connecting
  have branches : after.splitBranchScopes = middle.splitBranchScopes :=
    installed.branches.trans normalized.branches
  have present : ∀ id : NodeId, middle.nodes[id]? ≠ none → after.nodes[id]? = middle.nodes[id]? := by
    intro id held
    apply assembled.otherNode
    cases here : prepared.localNodes[id]? with
    | none => rfl
    | some node => exact absurd (assembled.fresh id node here) held
  refine ⟨assembled.grounded, ?_, ?_, ?_⟩
  · intro key recorded found
    rw [branches] at found
    rw [installed.ids, normalized.ids]
    exact mapped'.reserved key recorded found
  · intro key recorded found
    rw [branches] at found
    have old := mapped'.sound key recorded found
    apply old.transport
    · exact fun id member => present id (old.installed id member)
    · intro id member
      rw [edgesOf, edgesOf, assembled.otherEdges id]
      · cases here : prepared.localNodes[id]? with
        | none => rfl
        | some node => exact absurd (assembled.fresh id node here) (old.installed id member)
      · intro owner inner nested inside
        obtain ⟨_, _, held, _⟩ := assembled.nested.each owner inner nested
        exact not_recorded mapped mapped' charted (held.fresh id inside) nested inside found member
  · intro owner record found id member
    rw [installed.records] at found
    have reaches : middle.nodes[id]? ≠ none ∧
        ReflTransGen (Follows middle.nodes middle.transitions) record.scope.entry id := by
      rcases normalized.records owner record found with old | ⟨entry, among, same⟩
      · exact mapped'.nested owner record old id member
      · have inner := sound entry.1 entry.2 (ExtTreeMap.mem_toList_iff_getElem?_eq_some.mp among)
        rw [same] at member ⊢
        exact ⟨inner.installed id member, inner.reached id member⟩
    constructor
    · rw [present id reaches.1]
      exact reaches.1
    · apply ReflTransGen.mono ?_ _ _ reaches.2
      exact fun _ _ moves => assembled.follows_mono moves

theorem Stages.charted (charts : Charts descend) (compiles : Compiles descend)
    (mapped : Mapped before)
    (stages : Stages descend graph before first second middle third fourth after prepared
      nestedScopes partitions nestedExits scope) :
    Charted (fun _ => False) scope.holds before after := by
  have assembled := stages.assembled compiles mapped.grounded
  obtain ⟨_, charted, _⟩ := stages.inner_charted charts mapped
  obtain ⟨_, _, reserved⟩ := prepareScope_prepared stages.preparing
  have normalized := normalizeNestedBoundary_all assembled.nested.pairwise stages.normalizing
  have installed := install_installed stages.installing stages.connecting
  have branches : after.splitBranchScopes = middle.splitBranchScopes :=
    installed.branches.trans normalized.branches
  refine ⟨assembled.extended, ?_, ?_, ?_⟩
  · intro id member
    rw [installed.ids, normalized.ids]
    exact charted.ids id member
  · intro key taken _
    rw [branches]
    apply charted.keys key taken
    intro own
    exact (reserved key.1 (List.mem_append_left _ own)).1 taken
  · intro id
    have balance := charted.balance id
    rw [branches]
    cases here : prepared.localNodes[id]? with
    | some node =>
      have member : scope.members.contains id = true := by
        simpa using (assembled.members id).mpr (.inl (by rw [here]; simp))
      have uncovered : covering nestedScopes id = 0 := by
        by_contra covered
        obtain ⟨owner, inner, found, inside⟩ := exists_of_covering (Nat.pos_of_ne_zero covered)
        rw [assembled.notLocal found inside] at here
        cases here
      have gained : scope.holds id = 1 := if_pos member
      rw [installs_eq_zero (assembled.fresh id node here)] at balance
      rw [installs_eq_one (by rw [assembled.localNode id node here]; simp)]
      omega
    | none =>
      rw [installs_congr (assembled.otherNode id here)]
      have gained : scope.holds id = covering nestedScopes id := by
        have few : covering nestedScopes id ≤ 1 := covering_le_one assembled.nested.pairwise
        by_cases member : id ∈ scope.members
        · have holds : scope.holds id = 1 := if_pos (by simpa using member)
          rcases (assembled.members id).mp member with own | ⟨owner, inner, found, inside⟩
          · exact absurd here own
          · have covered := covering_pos found inside
            omega
        · have holds : scope.holds id = 0 := if_neg (by simpa using member)
          have uncovered : ¬ 0 < covering nestedScopes id := by
            intro covered
            obtain ⟨owner, inner, found, inside⟩ := exists_of_covering covered
            exact member ((assembled.members id).mpr (.inr ⟨owner, inner, found, inside⟩))
          omega
      omega

private theorem compileScopeWith_charts (charts : Charts descend) (compiles : Compiles descend) :
    Charts (compileScopeWith descend) := by
  intro graph before scope after mapped yields
  obtain ⟨_, _, _, _, _, _, _, _, _, stages⟩ := compileScopeWith_stages yields
  have assembled := stages.assembled compiles mapped.grounded
  obtain ⟨_, _, sound⟩ := stages.inner_charted charts mapped
  exact ⟨stages.mapped charts compiles mapped, stages.charted charts compiles mapped,
    assembled.isSound (materializeLocalStructure_owned stages.materializing) sound⟩

theorem compileScope_charts (levels : Nat) : Charts (compileScope levels) := by
  induction levels with
  | zero =>
    intro graph before scope after _ yields
    cases yields
  | succ levels ih => exact compileScopeWith_charts ih (compileScope_compiles levels)

end Compile

end OxideBatch.Plan
