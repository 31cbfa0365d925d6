import OxideBatch.Plan.WellRouted
import OxideBatch.Lib.Agreement

/-! Flows that declare the same things in another order compile alike: every loop of
the compiler over declarations is over a table in key order, or its steps commute. -/

namespace OxideBatch.Plan

open OxideBatch.Core Program Agreement
open Std (ExtTreeMap ExtTreeSet)

mutual

/-- Two flows that are the same up to the order of their declarations, with steps
related by `like`. The branches of a split keep their order. -/
inductive Similar (like : StepNode → StepNode → Prop) : FlowGraph → FlowGraph → Prop
  | of {left right : FlowGraph} {nodes : List (FlowNode FlowGraph)}
      {flows : List (NestedFlow FlowGraph)}
      (entry : left.entry = right.entry)
      (reordered : left.nodes.Perm nodes)
      (nodes : List.Forall₂ (SimilarNode like) nodes right.nodes)
      (transitions : left.transitions.Perm right.transitions)
      (reorderedFlows : left.nestedFlows.Perm flows)
      (flows : List.Forall₂ (SimilarFlow like) flows right.nestedFlows)
      (components : left.scopedComponents.Perm right.scopedComponents)
      (incrementer : left.parameterIncrementer = right.parameterIncrementer)
      (policy : left.jobRestartPolicy = right.jobRestartPolicy) : Similar like left right

inductive SimilarFlow (like : StepNode → StepNode → Prop) :
    NestedFlow FlowGraph → NestedFlow FlowGraph → Prop
  | of {left right : NestedFlow FlowGraph} (id : left.id = right.id)
      (graph : Similar like left.graph right.graph) : SimilarFlow like left right

inductive SimilarNode (like : StepNode → StepNode → Prop) :
    FlowNode FlowGraph → FlowNode FlowGraph → Prop
  | step {left right : StepNode} (alike : like left right) :
      SimilarNode like (.step left) (.step right)
  | decision (node : DecisionNode) : SimilarNode like (.decision node) (.decision node)
  | nestedJob (node : NestedJobNode) : SimilarNode like (.nestedJob node) (.nestedJob node)
  | customLeaf (node : CustomLeafNode) : SimilarNode like (.customLeaf node) (.customLeaf node)
  | split (node : SplitNode FlowGraph) {branches : List (SplitBranch FlowGraph)}
      (pairs : List.Forall₂ (SimilarBranch like) node.branches branches) :
      SimilarNode like (.split node) (.split { node with branches })
  | join (node : JoinNode) : SimilarNode like (.join node) (.join node)
  | partitionedStep (node : PartitionedStepNode) {worker : StepNode}
      (alike : like node.worker worker) :
      SimilarNode like (.partitionedStep node) (.partitionedStep { node with worker })

inductive SimilarBranch (like : StepNode → StepNode → Prop) :
    SplitBranch FlowGraph → SplitBranch FlowGraph → Prop
  | of {left right : SplitBranch FlowGraph} (steps : List.Forall₂ like left.steps right.steps)
      (flow : Option.Rel (Similar like) left.flow right.flow) : SimilarBranch like left right

end

section Edges

/-- The check of ambiguity finds nothing between two transitions. -/
def Clear (left right : FlowTransition) : Prop :=
  ¬ (ExitPattern.specificity left.pattern = ExitPattern.specificity right.pattern ∧
    ExitPattern.intersects left.pattern right.pattern = true)

theorem Clear.symm (clear : Clear left right) : Clear right left := by
  rintro ⟨same, meet⟩
  exact clear ⟨same.symm, by rwa [intersects_comm]⟩

private theorem checkUnambiguous_ok :
    checkUnambiguous node edges = .ok () ↔ edges.Pairwise Clear := by
  induction edges with
  | nil => exact ⟨fun _ => .nil, fun _ => rfl⟩
  | cons left edges ih =>
    simp only [checkUnambiguous]
    cases confused : edges.find? fun right =>
        ExitPattern.specificity left.pattern = ExitPattern.specificity right.pattern &&
          ExitPattern.intersects left.pattern right.pattern with
    | some right =>
      constructor
      · intro accepted
        cases accepted
      · intro clear
        have apart := (List.pairwise_cons.mp clear).1 right (List.mem_of_find?_eq_some confused)
        have found := List.find?_some confused
        simp only [Bool.and_eq_true, decide_eq_true_eq] at found
        exact absurd found apart
    | none =>
      have apart : ∀ right ∈ edges, Clear left right := by
        intro right member confusion
        have refused := List.find?_eq_none.mp confused right member
        simp [confusion.1, confusion.2] at refused
      rw [List.pairwise_cons]
      exact ⟨fun accepted => ⟨apart, ih.mp accepted⟩, fun clear => ih.mpr clear.2⟩

private theorem agree_of_iff {ε : Type} {first second : Except ε Unit}
    (same : first = .ok () ↔ second = .ok ()) : Agree (fun _ _ => True) first second := by
  cases first with
  | error failure =>
    cases second with
    | error _ => exact trivial
    | ok _ => exact absurd (same.mpr rfl) nofun
  | ok _ =>
    cases second with
    | error _ => exact absurd (same.mp rfl) nofun
    | ok _ => exact trivial

theorem checkUnambiguous_perm (perm : edges.Perm edges') :
    Agree (fun _ _ => True) (checkUnambiguous node edges) (checkUnambiguous node edges') := by
  apply agree_of_iff
  rw [checkUnambiguous_ok, checkUnambiguous_ok]
  exact perm.pairwise_iff fun clear => clear.symm

private theorem sortKey_injective : Function.Injective FlowTarget.sortKey := by
  have asStr : Function.Injective TerminalKind.asStr := by
    intro left right same
    cases left <;> cases right <;> first | rfl | simp [TerminalKind.asStr] at same
  have token : ∀ left right : NodeId, left.value = right.value → left = right := by
    rintro ⟨left, _⟩ ⟨right, _⟩ rfl
    rfl
  intro left right same
  cases left with
  | node id =>
    cases right with
    | node other =>
      have values := (Prod.mk.inj (toLex.injective same)).2
      rw [token id other values]
    | terminal kind => cases (Prod.mk.inj (toLex.injective same)).1
  | terminal kind =>
    cases right with
    | node other => cases (Prod.mk.inj (toLex.injective same)).1
    | terminal other =>
      have values := (Prod.mk.inj (toLex.injective same)).2
      rw [asStr values]

/-- Transitions of one source with the same rank are the same. -/
private theorem eq_of_transitionRank (source : left.source = right.source)
    (rank : transitionRank left = transitionRank right) : left = right := by
  obtain ⟨source', pattern, target⟩ := left
  obtain ⟨_, pattern', target'⟩ := right
  cases source
  have keys := (Prod.mk.inj (toLex.injective (Prod.mk.inj (toLex.injective rank)).2))
  have samePattern : pattern = pattern' := by
    obtain ⟨text, _⟩ := pattern
    obtain ⟨text', _⟩ := pattern'
    have same : text = text' := keys.1
    subst same
    rfl
  have sameTarget : target = target' := sortKey_injective keys.2
  rw [samePattern, sameTarget]

/-- The sort of the transitions of one source does not see their order. -/
theorem sortTransitions_eq_of_perm {edges edges' : List FlowTransition} {source : NodeId}
    (perm : edges.Perm edges') (sourced : ∀ edge ∈ edges, edge.source = source) :
    sortTransitions edges = sortTransitions edges' := by
  let ranked := fun left right : FlowTransition => transitionRank left ≤ transitionRank right
  have : Std.Total ranked := ⟨fun _ _ => le_total _ _⟩
  have : IsTrans FlowTransition ranked := ⟨fun _ _ _ => le_trans⟩
  have same := ((sortTransitions_perm edges).trans perm).trans (sortTransitions_perm edges').symm
  apply List.Perm.eq_of_pairwise ?_ (List.pairwise_insertionSort ranked edges)
    (List.pairwise_insertionSort ranked edges') same
  intro left right inLeft inRight below above
  apply eq_of_transitionRank
  · have one := sourced left ((sortTransitions_perm edges).mem_iff.mp inLeft)
    have two := sourced right
      (perm.mem_iff.mpr ((sortTransitions_perm edges').mem_iff.mp inRight))
    exact one.trans two.symm
  · exact le_antisymm below above

end Edges

section Maps

variable {Value Other : Type} {related : Value → Other → Prop}

/-- Maps with related values under the same identifiers. -/
def MapLike (related : Value → Other → Prop) (left : NodeMap Value) (right : NodeMap Other) : Prop :=
  ∀ id : NodeId, Option.Rel related left[id]? right[id]?

variable {left : NodeMap Value} {right : NodeMap Other}

theorem MapLike.lookup (alike : MapLike related left right) {id : NodeId}
    (found : left[id]? = some value) : ∃ other, right[id]? = some other ∧ related value other := by
  have pair := alike id
  rw [found] at pair
  cases other : right[id]? with
  | none =>
    rw [other] at pair
    cases pair
  | some other =>
    rw [other] at pair
    cases pair with
    | some holds => exact ⟨_, rfl, holds⟩

theorem MapLike.absent (alike : MapLike related left right) {id : NodeId} :
    left[id]? = none ↔ right[id]? = none := by
  have pair := alike id
  cases here : left[id]? with
  | none =>
    rw [here] at pair
    cases other : right[id]? with
    | none => simp
    | some _ =>
      rw [other] at pair
      cases pair
  | some _ =>
    rw [here] at pair
    cases other : right[id]? with
    | none =>
      rw [other] at pair
      cases pair
    | some _ => simp

theorem MapLike.contains (alike : MapLike related left right) (id : NodeId) :
    left.contains id = right.contains id := by
  have same := @MapLike.absent _ _ _ _ _ alike id
  rw [ExtTreeMap.contains_eq_isSome_getElem?, ExtTreeMap.contains_eq_isSome_getElem?]
  cases here : left[id]? with
  | none =>
    rw [same.mp here]
    rfl
  | some value =>
    obtain ⟨other, found, _⟩ := alike.lookup here
    rw [found]
    rfl

theorem MapLike.toList (alike : MapLike related left right) :
    List.Forall₂ (fun entry other => entry.1 = other.1 ∧ related entry.2 other.2)
      left.toList right.toList :=
  Tables.forall₂_toList alike

theorem MapLike.keys (alike : MapLike related left right) : left.keys = right.keys := by
  rw [← ExtTreeMap.map_fst_toList_eq_keys, ← ExtTreeMap.map_fst_toList_eq_keys]
  have pairs := alike.toList
  generalize left.toList = entries at pairs
  generalize right.toList = others at pairs
  induction pairs with
  | nil => rfl
  | cons here _ ih => rw [List.map_cons, List.map_cons, here.1, ih]

theorem MapLike.values (alike : MapLike related left right) :
    List.Forall₂ related left.values right.values := by
  rw [Tables.values_eq, Tables.values_eq]
  apply List.forall₂_map_left_iff.mpr
  apply List.forall₂_map_right_iff.mpr
  exact alike.toList.imp fun _ _ pair => pair.2

theorem MapLike.insert (alike : MapLike related left right) (id : NodeId)
    (holds : related value other) : MapLike related (left.insert id value) (right.insert id other) := by
  intro key
  by_cases same : id = key
  · subst same
    rw [getElem?_insert_self, getElem?_insert_self]
    exact .some holds
  · rw [getElem?_insert_ne same, getElem?_insert_ne same]
    exact alike key

theorem MapLike.empty : MapLike related ∅ ∅ := by
  intro id
  simp only [ExtTreeMap.getElem?_empty]
  exact .none

/-- Paired entries are inserted alike. -/
theorem insertFresh_pairs {taken : NodeId → Bool} {entries : List (NodeId × Value)}
    {others : List (NodeId × Other)} (alike : MapLike related left right)
    (pairs : List.Forall₂ (fun entry other => entry.1 = other.1 ∧ related entry.2 other.2)
      entries others) :
    Agree (MapLike related) (insertFresh taken left entries) (insertFresh taken right others) := by
  apply Agree.foldlM ?_ pairs alike
  intro held held' entry other alike pair
  rw [pair.1, alike.contains]
  split
  · exact trivial
  · exact alike.insert _ pair.2

/-- The order in which entries are inserted does not matter. -/
private theorem insertFresh_perm {taken : NodeId → Bool} {entries entries' : List (NodeId × Value)}
    (perm : entries.Perm entries') (held : NodeMap Value) :
    Agree (· = ·) (insertFresh taken held entries) (insertFresh taken held entries') := by
  apply Agree.foldlM_perm (fun _ => rfl) Eq.trans ?_ ?_ perm rfl
  · rintro held _ entry rfl
    exact Agree.of_eq
  · intro held first second
    have one : ∀ held : NodeMap Value, ∀ entry : NodeId × Value,
        (if (taken entry.1 || held.contains entry.1) = true then
          (.error (.duplicateNodeId entry.1) : Except PlanError (NodeMap Value))
        else .ok (held.insert entry.1 entry.2)) =
        if taken entry.1 = true ∨ held.contains entry.1 = true then
          .error (.duplicateNodeId entry.1) else .ok (held.insert entry.1 entry.2) := by
      intro held entry
      simp only [Bool.or_eq_true]
    simp only [one]
    by_cases same : first.1 = second.1
    · -- the second of two entries under one key is refused
      by_cases refused : taken first.1 = true ∨ held.contains first.1 = true
      · rw [if_pos refused, if_pos (same ▸ refused)]
        exact trivial
      · rw [if_neg refused, if_neg (same ▸ refused)]
        change Agree _ (if _ then _ else _) (if _ then _ else _)
        rw [if_pos (by simp [same]), if_pos (by simp [same])]
        exact trivial
    · have away : ∀ value, (held.insert first.1 value).contains second.1 = held.contains second.1 := by
        intro value
        simp [ExtTreeMap.contains_insert, same]
      have away' : ∀ value, (held.insert second.1 value).contains first.1 = held.contains first.1 := by
        intro value
        simp [ExtTreeMap.contains_insert, Ne.symm same]
      by_cases refused : taken first.1 = true ∨ held.contains first.1 = true
      · rw [if_pos refused]
        by_cases refused' : taken second.1 = true ∨ held.contains second.1 = true
        · rw [if_pos refused']
          exact trivial
        · rw [if_neg refused']
          change Agree _ _ (if _ then _ else _)
          rw [if_pos (by rw [away']; exact refused)]
          exact trivial
      · rw [if_neg refused]
        by_cases refused' : taken second.1 = true ∨ held.contains second.1 = true
        · rw [if_pos refused']
          change Agree _ (if _ then _ else _) _
          rw [if_pos (by rw [away]; exact refused')]
          exact trivial
        · rw [if_neg refused']
          change Agree _ (if _ then _ else _) (if _ then _ else _)
          rw [if_neg (by rw [away]; exact refused'), if_neg (by rw [away']; exact refused)]
          exact Tables.insert_comm same

end Maps

section Nodes

/-- Steps that the compiler and the manifest cannot tell apart. -/
structure StepNode.Like (left right : StepNode) : Prop where
  id : left.id = right.id
  start : left.start = right.start
  repeats : left.repeatDefinition = right.repeatDefinition
  manifest : left.manifestValue = right.manifestValue

theorem StepNode.Like.refl (step : StepNode) : step.Like step := ⟨rfl, rfl, rfl, rfl⟩

variable {like : StepNode → StepNode → Prop} {left right : FlowNode FlowGraph}

theorem SimilarNode.splitJoin? (similar : SimilarNode like left right) :
    left.splitJoin? = right.splitJoin? := by
  cases similar <;> rfl

theorem SimilarNode.isJoin (similar : SimilarNode like left right) : left.isJoin = right.isJoin := by
  cases similar <;> rfl

theorem SimilarNode.id (alike : ∀ left right, like left right → left.Like right)
    (similar : SimilarNode like left right) : left.id = right.id := by
  cases similar with
  | step pair => exact (alike _ _ pair).id
  | decision _ | nestedJob _ | customLeaf _ | split _ _ | join _ | partitionedStep _ _ => rfl

end Nodes

section States

variable {like : StepNode → StepNode → Prop}

/-- Plans on the way that differ in the nodes alone, and there up to order. -/
def Alike (like : StepNode → StepNode → Prop) (left right : AdvancedCompiler) : Prop :=
  ∃ nodes, right = { left with nodes } ∧ MapLike (SimilarNode like) left.nodes nodes

/-- A change of the plan that does not touch its nodes. -/
theorem Alike.change {left right : AdvancedCompiler} {update : AdvancedCompiler → AdvancedCompiler}
    (alike : Alike like left right)
    (blind : ∀ (compiler : AdvancedCompiler) (nodes : NodeMap (FlowNode FlowGraph)),
      update { compiler with nodes } = { update compiler with nodes })
    (kept : ∀ compiler, (update compiler).nodes = compiler.nodes) :
    Alike like (update left) (update right) := by
  obtain ⟨nodes, rfl, pairs⟩ := alike
  refine ⟨nodes, blind left nodes, ?_⟩
  rwa [kept]

theorem simulates_change {update : AdvancedCompiler → AdvancedCompiler}
    (blind : ∀ (compiler : AdvancedCompiler) (nodes : NodeMap (FlowNode FlowGraph)),
      update { compiler with nodes } = { update compiler with nodes })
    (kept : ∀ compiler, (update compiler).nodes = compiler.nodes) :
    Simulates (ε := PlanError) (Alike like) (fun _ _ => True) (modify update) (modify update) :=
  Simulates.modify fun _ _ alike => alike.change blind kept

private theorem simulates_narrowRestartPolicy (policy : RestartPolicy) :
    Simulates (Alike like) (fun _ _ => True) (narrowRestartPolicy policy)
      (narrowRestartPolicy policy) := by
  apply Simulates.ite Iff.rfl
  · exact simulates_change (fun _ _ => rfl) fun _ => rfl
  · exact Simulates.pure trivial

private theorem simulates_installScopedComponent (component : ScopedComponentDefinition) :
    Simulates (Alike like) (fun _ _ => True) (installScopedComponent component)
      (installScopedComponent component) := by
  refine Simulates.get.bind ?_
  rintro compiler _ ⟨nodes, rfl, pairs⟩
  apply Simulates.ite Iff.rfl Simulates.throw
  apply Simulates.ite Iff.rfl Simulates.throw
  exact simulates_change (fun _ _ => rfl) fun _ => rfl

private theorem simulates_countTransitions (declared : Nat) :
    Simulates (Alike like) (fun _ _ => True) (countTransitions declared)
      (countTransitions declared) := by
  refine Simulates.get.bind ?_
  rintro compiler _ ⟨nodes, rfl, pairs⟩
  dsimp only
  split
  · exact Simulates.throw
  · refine Simulates.bind (simulates_change ?_ ?_) fun _ _ _ => ?_
    · exact fun _ _ => rfl
    · exact fun _ => rfl
    · exact Simulates.ite Iff.rfl Simulates.throw (Simulates.pure trivial)

private theorem simulates_checkMaterializedNodes :
    Simulates (Alike like) (fun _ _ => True) checkMaterializedNodes checkMaterializedNodes := by
  refine Simulates.get.bind ?_
  rintro compiler _ ⟨nodes, rfl, pairs⟩
  exact Simulates.ite Iff.rfl Simulates.throw (Simulates.pure trivial)

private theorem simulates_reserveId (id : NodeId) :
    Simulates (Alike like) (fun _ _ => True) (reserveId id) (reserveId id) := by
  refine Simulates.get.bind ?_
  rintro compiler _ ⟨nodes, rfl, pairs⟩
  apply Simulates.ite Iff.rfl Simulates.throw
  refine Simulates.bind (simulates_change ?_ ?_) fun _ _ _ => ?_
  · exact fun _ _ => rfl
  · exact fun _ => rfl
  · exact simulates_checkMaterializedNodes

private theorem simulates_same {α : Type} {body : α → CompilerM PUnit} (values : List α)
    (step : ∀ value, Simulates (Alike like) (fun _ _ => True) (body value) (body value)) :
    Simulates (Alike like) (fun _ _ => True) (values.forM body) (values.forM body) := by
  have pairs : List.Forall₂ (· = ·) values values := List.forall₂_refl values
  apply Simulates.forM ?_ pairs
  rintro value _ rfl
  exact step value

section Components

def ScopedComponentDefinition.key (component : ScopedComponentDefinition) :
    ScopeKind × ScopedComponentId := (component.scope, component.id)

/-- A component that is new and within the bound of its scope. -/
def Fits (component : ScopedComponentDefinition) (installed : ScopedComponents) : Prop :=
  installed[component.key]? = none ∧
    installed.keys.countP (·.1 = component.scope) ≠ maxScopedComponents

theorem installScopedComponent_ok {component : ScopedComponentDefinition} {before : AdvancedCompiler}
    {answer : PUnit × AdvancedCompiler} :
    installScopedComponent component before = .ok answer ↔
      Fits component before.scopedComponents ∧ answer = ((), { before with
        scopedComponents := before.scopedComponents.insert component.key component }) := by
  change (if before.scopedComponents.contains component.key = true then _ else
    if before.scopedComponents.keys.countP (·.1 = component.scope) = maxScopedComponents then _
    else _ : CompilerM PUnit) before = _ ↔ _
  unfold Fits
  split
  · rename_i held
    rw [ExtTreeMap.contains_eq_isSome_getElem?] at held
    constructor
    · intro yields
      cases yields
    · rintro ⟨⟨absent, _⟩, _⟩
      rw [absent] at held
      cases held
  · rename_i unused
    rw [ExtTreeMap.contains_eq_isSome_getElem?, Bool.not_eq_true, Option.isSome_eq_false_iff,
      Option.isNone_iff_eq_none] at unused
    split
    · rename_i full
      constructor
      · intro yields
        cases yields
      · rintro ⟨⟨_, room⟩, _⟩
        exact absurd full room
    · rename_i room
      constructor
      · intro yields
        cases yields
        exact ⟨⟨unused, room⟩, rfl⟩
      · rintro ⟨_, rfl⟩
        rfl

/-- Two components fit one after the other in either order. -/
theorem Fits.swap {first second : ScopedComponentDefinition} {installed : ScopedComponents}
    (fits : Fits first installed) (fits' : Fits second (installed.insert first.key first)) :
    first.key ≠ second.key ∧ Fits second installed ∧
      Fits first (installed.insert second.key second) := by
  have different : first.key ≠ second.key := by
    intro same
    have absent := fits'.1
    rw [Tables.lookup_insert, if_pos same] at absent
    cases absent
  have absent : installed[second.key]? = none := by
    have held := fits'.1
    rwa [Tables.lookup_insert, if_neg different] at held
  have room := fits'.2
  rw [(Tables.keys_insert_perm fits.1).countP_eq, List.countP_cons] at room
  refine ⟨different, ⟨absent, ?_⟩, ⟨?_, ?_⟩⟩
  · by_cases same : first.scope = second.scope
    · have limit := fits.2
      rwa [same] at limit
    · simpa [ScopedComponentDefinition.key, same] using room
  · rw [Tables.lookup_insert, if_neg (Ne.symm different)]
    exact fits.1
  · rw [(Tables.keys_insert_perm absent).countP_eq, List.countP_cons]
    by_cases same : first.scope = second.scope
    · simpa [ScopedComponentDefinition.key, same] using room
    · have limit := fits.2
      simpa [ScopedComponentDefinition.key, Ne.symm same] using limit

/-- The order in which scoped components are installed does not matter. -/
private theorem installScopedComponents_perm
    {components components' : List ScopedComponentDefinition}
    (perm : components.Perm components') (before : AdvancedCompiler) :
    Agree (· = ·) (components.forM installScopedComponent before)
      (components'.forM installScopedComponent before) := by
  apply forM_perm ?_ perm
  -- one direction; the other one is the same with the components exchanged
  have along : ∀ (state : AdvancedCompiler) (first second : ScopedComponentDefinition) answer,
      (installScopedComponent first >>= fun _ => installScopedComponent second) state = .ok answer →
      (installScopedComponent second >>= fun _ => installScopedComponent first) state =
        .ok answer := by
    rintro state first second ⟨_, after⟩ yields
    obtain ⟨_, middle, one, two⟩ := bind_yields.mp yields
    obtain ⟨fits, same⟩ := installScopedComponent_ok.mp one
    cases same
    obtain ⟨fits', same'⟩ := installScopedComponent_ok.mp two
    cases same'
    obtain ⟨different, free, later⟩ := fits.swap fits'
    apply bind_yields.mpr
    refine ⟨(), _, installScopedComponent_ok.mpr ⟨free, rfl⟩, ?_⟩
    apply installScopedComponent_ok.mpr
    refine ⟨later, ?_⟩
    simp only [Tables.insert_comm different]
  intro state first second
  apply Agree.of_ok_iff
  exact fun answer => ⟨along state first second answer, along state second first answer⟩

end Components

variable (alike : ∀ left right, like left right → StepNode.Like left right)

include alike

private theorem simulates_registerStepRepeat {left right : StepNode} (pair : like left right) :
    Simulates (Alike like) (fun _ _ => True) (registerStepRepeat left) (registerStepRepeat right) := by
  have same : right.repeatIds = left.repeatIds := by
    rw [StepNode.repeatIds, StepNode.repeatIds, (alike left right pair).repeats]
  unfold registerStepRepeat
  rw [same]
  apply simulates_same
  intro id
  refine Simulates.get.bind ?_
  rintro compiler _ ⟨nodes, rfl, pairs⟩
  apply Simulates.ite Iff.rfl Simulates.throw
  exact simulates_change (fun _ _ => rfl) fun _ => rfl

private theorem simulates_registerNodeRepeats {left right : FlowNode FlowGraph}
    (similar : SimilarNode like left right) :
    Simulates (Alike like) (fun _ _ => True) (registerNodeRepeats left)
      (registerNodeRepeats right) := by
  cases similar with
  | step pair => exact simulates_registerStepRepeat alike pair
  | partitionedStep _ pair => exact simulates_registerStepRepeat alike pair
  | split node pairs =>
    apply Simulates.forM fun _ _ pair => simulates_registerStepRepeat alike pair
    apply List.rel_flatMap pairs
    intro branch branch' similar
    cases similar with
    | of steps _ => exact steps
  | decision _ | nestedJob _ | customLeaf _ | join _ => exact Simulates.pure trivial

omit alike in
private theorem simulates_components {components components' : List ScopedComponentDefinition}
    (perm : components.Perm components') :
    Simulates (Alike like) (fun _ _ => True) (components.forM installScopedComponent)
      (components'.forM installScopedComponent) := by
  intro state state' related
  have here := simulates_same components' simulates_installScopedComponent state state' related
  apply (installScopedComponents_perm perm state).trans here
  rintro answer _ answer' rfl holds
  exact holds

theorem collectNodes_agree {nodes middle nodes' : List (FlowNode FlowGraph)}
    (reordered : nodes.Perm middle) (pairs : List.Forall₂ (SimilarNode like) middle nodes') :
    Agree (MapLike (SimilarNode like)) (collectNodes nodes) (collectNodes nodes') := by
  have perm : Agree (· = ·) (collectNodes nodes) (collectNodes middle) :=
    insertFresh_perm (reordered.map fun node : FlowNode FlowGraph => (node.id, node)) ∅
  have paired : List.Forall₂
      (fun entry other => entry.1 = other.1 ∧ SimilarNode like entry.2 other.2)
      (middle.map fun node => (node.id, node)) (nodes'.map fun node => (node.id, node)) := by
    apply List.forall₂_map_left_iff.mpr
    apply List.forall₂_map_right_iff.mpr
    exact pairs.imp fun _ _ similar => ⟨similar.id alike, similar⟩
  apply perm.trans (insertFresh_pairs MapLike.empty paired)
  rintro collected _ collected' rfl holds
  exact holds

omit alike in
private theorem collectNested_agree {taken : NodeId → Bool}
    {flows middle flows' : List (NestedFlow FlowGraph)}
    (reordered : flows.Perm middle) (pairs : List.Forall₂ (SimilarFlow like) middle flows') :
    Agree (MapLike (Similar like))
      (insertFresh taken ∅ (flows.map fun flow => (flow.id, flow.graph)))
      (insertFresh taken ∅ (flows'.map fun flow => (flow.id, flow.graph))) := by
  have perm : Agree (· = ·)
      (insertFresh taken ∅ (flows.map fun flow => (flow.id, flow.graph)))
      (insertFresh taken ∅ (middle.map fun flow => (flow.id, flow.graph))) :=
    insertFresh_perm (reordered.map fun flow => (flow.id, flow.graph)) ∅
  have paired : List.Forall₂ (fun entry other => entry.1 = other.1 ∧ Similar like entry.2 other.2)
      (middle.map fun flow => (flow.id, flow.graph))
      (flows'.map fun flow => (flow.id, flow.graph)) := by
    apply List.forall₂_map_left_iff.mpr
    apply List.forall₂_map_right_iff.mpr
    refine pairs.imp ?_
    intro flow flow' similar
    cases similar with
    | of id graph => exact ⟨id, graph⟩
  apply perm.trans (insertFresh_pairs MapLike.empty paired)
  rintro collected _ collected' rfl holds
  exact holds

/-- Prepared scopes of flows that are the same up to order. -/
structure PreparedLike (like : StepNode → StepNode → Prop) (left right : PreparedScope) : Prop where
  entry : left.declaredEntry = right.declaredEntry
  nodes : MapLike (SimilarNode like) left.localNodes right.localNodes
  nested : MapLike (Similar like) left.nested right.nested
  transitions : left.transitions.Perm right.transitions

theorem simulates_prepareScope {left right : FlowGraph} (similar : Similar like left right) :
    Simulates (Alike like) (PreparedLike like) (prepareScope left) (prepareScope right) := by
  cases similar with
  | of entry reordered nodes transitions reorderedFlows flows components _ policy =>
    unfold prepareScope
    rw [policy, transitions.length_eq, entry]
    refine (simulates_narrowRestartPolicy _).bind fun _ _ _ => ?_
    refine (simulates_components components).bind fun _ _ _ => ?_
    refine (simulates_countTransitions _).bind fun _ _ _ => ?_
    cases right.entry with
    | none => exact Simulates.throw
    | some declaredEntry =>
      refine (Simulates.lift (collectNodes_agree alike reordered nodes)).bind ?_
      intro localNodes localNodes' nodesLike
      refine (Simulates.forM (fun _ _ pair => simulates_registerNodeRepeats alike pair)
        nodesLike.values).bind fun _ _ _ => ?_
      have taken : localNodes.contains = localNodes'.contains := funext nodesLike.contains
      have gathered : Agree (MapLike (Similar like)) (collectNested localNodes left.nestedFlows)
          (collectNested localNodes' right.nestedFlows) := by
        unfold collectNested
        rw [taken]
        exact collectNested_agree reorderedFlows flows
      refine (Simulates.lift gathered).bind ?_
      intro nested nested' nestedLike
      rw [nodesLike.contains, nestedLike.contains]
      apply Simulates.ite Iff.rfl Simulates.throw
      rw [nodesLike.keys, nestedLike.keys]
      refine (simulates_same _ simulates_reserveId).bind fun _ _ _ => ?_
      exact Simulates.pure ⟨rfl, nodesLike, nestedLike, transitions⟩

end States

section Pairs

theorem forall₂_zipIdx {α β : Type} {related : α → β → Prop} {values : List α} {others : List β}
    (pairs : List.Forall₂ related values others) (start : Nat) :
    List.Forall₂ (fun left right => related left.1 right.1 ∧ left.2 = right.2)
      (values.zipIdx start) (others.zipIdx start) := by
  induction pairs generalizing start with
  | nil => exact .nil
  | cons here _ ih =>
    rw [List.zipIdx_cons, List.zipIdx_cons]
    exact .cons ⟨here, rfl⟩ (ih (start + 1))

theorem isSome_find? {α β : Type} {related : α → β → Prop} {holds : α → Bool} {holds' : β → Bool}
    {values : List α} {others : List β} (pairs : List.Forall₂ related values others)
    (same : ∀ left right, related left right → holds left = holds' right) :
    (values.find? holds).isSome = (others.find? holds').isSome := by
  induction pairs with
  | nil => rfl
  | cons here _ ih =>
    rw [List.find?_cons, List.find?_cons, same _ _ here]
    split
    · rfl
    · exact ih

end Pairs

section Materialize

variable {like : StepNode → StepNode → Prop} {descend : FlowGraph → CompilerM CompiledFlowScope}
  (alike : ∀ left right, like left right → StepNode.Like left right)
  (descends : ∀ left right, Similar like left right →
    Simulates (Alike like) (· = ·) (descend left) (descend right))

include descends

theorem simulates_compileNestedScopes {nested nested' : NodeMap FlowGraph}
    (nestedLike : MapLike (Similar like) nested nested') :
    Simulates (Alike like) (· = ·) (compileNestedScopes descend nested)
      (compileNestedScopes descend nested') := by
  apply Simulates.foldlM ?_ nestedLike.toList rfl
  rintro scopes _ flow flow' rfl ⟨sameId, similar⟩
  unfold compileNestedScope
  rw [sameId]
  refine (descends _ _ similar).bind ?_
  rintro scope _ rfl
  exact Simulates.pure rfl

include alike

private theorem simulates_materializeBranch {id : NodeId} {ordinal : Nat}
    {branch branch' : SplitBranch FlowGraph} (similar : SimilarBranch like branch branch') :
    Simulates (Alike like) (fun _ _ => True) (materializeBranch descend id ordinal branch)
      (materializeBranch descend id ordinal branch') := by
  obtain ⟨steps, flow⟩ := similar
  refine Simulates.bind (simulates_change ?_ ?_) fun _ _ _ => ?_
  · exact fun _ _ => rfl
  · exact fun _ => rfl
  · refine simulates_checkMaterializedNodes.bind fun _ _ _ => ?_
    generalize branch.flow = declared at flow
    generalize branch'.flow = declared' at flow
    cases flow with
    | some graph =>
      refine (descends _ _ graph).bind ?_
      rintro scope _ rfl
      exact simulates_change (fun _ _ => rfl) fun _ => rfl
    | none =>
      dsimp only
      rw [steps.length_eq]
      apply Simulates.ite Iff.rfl Simulates.throw
      apply Simulates.forM ?_ steps
      intro step step' pair
      rw [(alike step step' pair).id]
      exact simulates_reserveId _

private theorem simulates_materializeSplit {declaredEntry id : NodeId} {split : SplitNode FlowGraph}
    {branches : List (SplitBranch FlowGraph)} {localNodes localNodes' : NodeMap (FlowNode FlowGraph)}
    {owners : NodeMap NodeId} (pairs : List.Forall₂ (SimilarBranch like) split.branches branches)
    (nodesLike : MapLike (SimilarNode like) localNodes localNodes') :
    Simulates (Alike like) (· = ·)
      (materializeSplit descend declaredEntry id split localNodes owners)
      (materializeSplit descend declaredEntry id { split with branches } localNodes' owners) := by
  have joins : localNodes[split.join]?.any (·.isJoin) = localNodes'[split.join]?.any (·.isJoin) := by
    cases here : localNodes[split.join]? with
    | none => rw [nodesLike.absent.mp here]
    | some node =>
      obtain ⟨node', found, similar⟩ := nodesLike.lookup here
      rw [found]
      exact similar.isJoin
  unfold materializeSplit
  dsimp only
  rw [joins, pairs.length_eq]
  apply Simulates.ite Iff.rfl Simulates.throw
  apply Simulates.ite Iff.rfl Simulates.throw
  apply Simulates.ite Iff.rfl Simulates.throw
  apply Simulates.ite Iff.rfl Simulates.throw
  cases owners[split.join]? with
  | some first => exact Simulates.throw
  | none =>
    refine Simulates.bind (Simulates.forM ?_ (forall₂_zipIdx pairs 0)) fun _ _ _ => ?_
    · rintro branch branch' ⟨similar, ordinal⟩
      rw [ordinal]
      exact simulates_materializeBranch alike descends similar
    · exact Simulates.pure rfl

private theorem simulates_materializeNode {declaredEntry : NodeId}
    {localNodes localNodes' : NodeMap (FlowNode FlowGraph)} {owners : NodeMap NodeId}
    {entry entry' : NodeId × FlowNode FlowGraph} (sameId : entry.1 = entry'.1)
    (similar : SimilarNode like entry.2 entry'.2)
    (nodesLike : MapLike (SimilarNode like) localNodes localNodes') :
    Simulates (Alike like) (· = ·) (materializeNode descend declaredEntry localNodes owners entry)
      (materializeNode descend declaredEntry localNodes' owners entry') := by
  obtain ⟨id, node⟩ := entry
  obtain ⟨_, node'⟩ := entry'
  cases sameId
  cases similar with
  | split node pairs => exact simulates_materializeSplit alike descends pairs nodesLike
  | partitionedStep node pair =>
    unfold materializeNode
    dsimp only
    rw [(alike _ _ pair).id]
    exact (simulates_reserveId _).bind fun _ _ _ => Simulates.pure rfl
  | step _ | decision _ | nestedJob _ | customLeaf _ | join _ => exact Simulates.pure rfl

theorem simulates_materializeLocalStructure {declaredEntry : NodeId}
    {localNodes localNodes' : NodeMap (FlowNode FlowGraph)}
    (nodesLike : MapLike (SimilarNode like) localNodes localNodes') :
    Simulates (Alike like) (fun _ _ => True)
      (materializeLocalStructure descend declaredEntry localNodes)
      (materializeLocalStructure descend declaredEntry localNodes') := by
  refine Simulates.bind (Simulates.foldlM ?_ nodesLike.toList rfl) ?_
  · rintro owners _ entry entry' rfl ⟨sameId, similar⟩
    exact simulates_materializeNode alike descends sameId similar nodesLike
  · rintro owners _ rfl
    have same : (localNodes.toList.find? fun entry =>
          entry.2.isJoin && !owners.contains entry.1).isSome =
        (localNodes'.toList.find? fun entry =>
          entry.2.isJoin && !owners.contains entry.1).isSome := by
      apply isSome_find? nodesLike.toList
      rintro entry entry' ⟨sameId, similar⟩
      rw [sameId, similar.isJoin]
    cases orphan : localNodes.toList.find? fun entry =>
        entry.2.isJoin && !owners.contains entry.1 with
    | some entry =>
      rw [orphan] at same
      obtain ⟨entry', orphan'⟩ := Option.isSome_iff_exists.mp same.symm
      rw [orphan']
      exact Simulates.throw
    | none =>
      rw [orphan] at same
      have orphan' := Option.isSome_eq_false_iff.mp same.symm
      rw [Option.isNone_iff_eq_none.mp orphan']
      exact Simulates.pure trivial

end Materialize

end OxideBatch.Plan
