import OxideBatch.Plan.SimilarEdges

/-! What a compilation counts: the places, edges, and repeat identities it has
reserved are those of the nodes and nested flows it has installed. -/

namespace OxideBatch.Plan

open OxideBatch.Core Program
open Std (ExtTreeMap ExtTreeSet)

section Measures

/-- The places of a branch beside the nodes of its flow: itself and its linear steps. -/
def SplitBranch.places (branch : SplitBranch FlowGraph) : Nat :=
  1 + if branch.flow.isSome then 0 else branch.steps.length

/-- The places a node takes beside its own. -/
def FlowNode.embedded : FlowNode FlowGraph → Nat
  | .split node => (node.branches.map (·.places)).sum
  | .partitionedStep _ => 1
  | _ => 0

/-- The repeat identities a node declares. -/
def FlowNode.repeatIds : FlowNode FlowGraph → List RepeatId
  | .step node => node.repeatIds
  | .partitionedStep node => node.worker.repeatIds
  | .split node => (node.branches.flatMap (·.steps)).flatMap (·.repeatIds)
  | _ => []

namespace AdvancedCompiler

variable (compiler : AdvancedCompiler)

/-- What `check_materialized_nodes` bounds. -/
def materialized : Nat := compiler.allIds.size + compiler.structuralBranches

/-- The places of the installed nodes and nested flows. -/
def placed : Nat :=
  Tables.total (fun node => 1 + node.embedded) compiler.nodes + compiler.nestedRecords.size

/-- The installed transitions and the exits of nested flows. -/
def connected : Nat :=
  Tables.total List.length compiler.transitions +
    Tables.total (fun record => record.exits.length) compiler.nestedRecords

/-- How often installed nodes declare a repeat identity. -/
def repeated (id : RepeatId) : Nat :=
  Tables.total (fun node => node.repeatIds.count id) compiler.nodes

def registered (id : RepeatId) : Nat := if id ∈ compiler.repeatIds then 1 else 0

/-- The bounds that every step of the compilation enforces. -/
structure Within : Prop where
  nodes : compiler.materialized ≤ maxNodes
  transitions : compiler.declaredTransitions ≤ maxTransitions
  components : ∀ scope, compiler.scopedComponents.keys.countP (·.1 = scope) ≤ maxScopedComponents
  keyed : ∀ (key : ScopeKind × ScopedComponentId) (component : ScopedComponentDefinition),
    compiler.scopedComponents[key]? = some component → component.key = key

end AdvancedCompiler

end Measures

section Adds

/-- A step that installs nothing and reserves places, edges, and repeat identities. -/
structure Adds (places edges : Nat) (repeats : List RepeatId) (before after : AdvancedCompiler) :
    Prop where
  quiet : Quiet before after
  places : after.materialized = before.materialized + places
  edges : after.declaredTransitions = before.declaredTransitions + edges
  repeats : ∀ id, after.registered id = before.registered id + repeats.count id
  within : before.Within → after.Within

theorem Adds.refl (compiler : AdvancedCompiler) : Adds 0 0 [] compiler compiler :=
  ⟨Quiet.refl compiler, rfl, rfl, fun _ => rfl, fun within => within⟩

theorem Adds.trans {places places' edges edges' : Nat} {repeats repeats' : List RepeatId}
    {first second third : AdvancedCompiler} (left : Adds places edges repeats first second)
    (right : Adds places' edges' repeats' second third) :
    Adds (places + places') (edges + edges') (repeats ++ repeats') first third := by
  refine ⟨left.quiet.trans right.quiet, ?_, ?_, ?_, fun within => right.within (left.within within)⟩
  · rw [right.places, left.places, Nat.add_assoc]
  · rw [right.edges, left.edges, Nat.add_assoc]
  · intro id
    rw [right.repeats, left.repeats, List.count_append, Nat.add_assoc]

theorem flatMap_none {α : Type} (values : List α) :
    values.flatMap (fun _ => ([] : List RepeatId)) = [] := by
  simp

/-- A loop of steps that reserve one after the other. -/
theorem adds_forM {α : Type} {values : List α} {body : α → CompilerM PUnit}
    {before after : AdvancedCompiler} (places : α → Nat)
    (repeats : α → List RepeatId)
    (step : ∀ value ∈ values, ∀ before after, body value before = .ok ((), after) →
      Adds (places value) 0 (repeats value) before after)
    (yields : values.forM body before = .ok ((), after)) :
    Adds (values.map places).sum 0 (values.flatMap repeats) before after := by
  induction values generalizing before with
  | nil =>
    cases yields
    exact Adds.refl _
  | cons value values ih =>
    obtain ⟨_, middle, first, rest⟩ := yields_bind yields
    have here := step value List.mem_cons_self before middle first
    have later := ih (fun other member => step other (List.mem_cons_of_mem _ member)) rest
    rw [List.map_cons, List.sum_cons, List.flatMap_cons]
    exact here.trans later

private theorem adds_narrowRestartPolicy
    (yields : narrowRestartPolicy policy before = .ok ((), after)) :
    Adds 0 0 [] before after := by
  have quiet := quiet_narrowRestartPolicy policy _ _ _ yields
  unfold narrowRestartPolicy at yields
  split at yields
  · cases yields
    exact ⟨quiet, rfl, rfl, fun _ => rfl, fun within =>
      ⟨within.nodes, within.transitions, within.components, within.keyed⟩⟩
  · cases yields
    exact Adds.refl _

private theorem adds_installScopedComponent
    (yields : installScopedComponent component before = .ok ((), after)) :
    Adds 0 0 [] before after := by
  have quiet := quiet_installScopedComponent component _ _ _ yields
  obtain ⟨fits, same⟩ := installScopedComponent_ok.mp yields
  cases same
  refine ⟨quiet, rfl, rfl, fun _ => rfl, fun within => ⟨within.nodes, within.transitions, ?_, ?_⟩⟩
  · intro scope
    have room := within.components scope
    change (before.scopedComponents.insert component.key component).keys.countP _ ≤ _
    rw [(Tables.keys_insert_perm fits.1).countP_eq, List.countP_cons]
    by_cases same : component.scope = scope
    · subst same
      have below := fits.2
      simp only [ScopedComponentDefinition.key, decide_true, if_true]
      omega
    · simpa [ScopedComponentDefinition.key, same] using room
  · intro key other found
    rcases Tables.lookup_insert_cases found with ⟨rfl, rfl⟩ | ⟨_, old⟩
    · rfl
    · exact within.keyed key other old

private theorem adds_countTransitions
    (yields : countTransitions declared before = .ok ((), after)) :
    Adds 0 declared [] before after := by
  have quiet := quiet_countTransitions declared _ _ _ yields
  obtain ⟨_, _, got, rest⟩ := yields_bind yields
  cases got
  cases summed : checkedAdd before.declaredTransitions declared with
  | none =>
    rw [summed] at rest
    cases rest
  | some total =>
    rw [summed] at rest
    obtain ⟨_, _, changed, checking⟩ := yields_bind rest
    cases changed
    split at checking
    · cases checking
    · rename_i few
      cases checking
      have exact : total = before.declaredTransitions + declared := by
        unfold checkedAdd at summed
        split at summed
        · exact (Option.some.inj summed).symm
        · cases summed
      refine ⟨quiet, rfl, exact, fun _ => rfl, fun within =>
        ⟨within.nodes, ?_, within.components, within.keyed⟩⟩
      exact Nat.le_of_not_lt few

theorem checkMaterializedNodes_within
    (yields : checkMaterializedNodes before = .ok ((), after)) :
    after = before ∧ before.materialized ≤ maxNodes := by
  obtain ⟨_, _, got, rest⟩ := yields_bind yields
  cases got
  split at rest
  · cases rest
  · rename_i few
    cases rest
    exact ⟨rfl, Nat.le_of_not_lt few⟩

theorem adds_reserveId {id : NodeId} (yields : reserveId id before = .ok ((), after)) :
    Adds 1 0 [] before after := by
  have quiet := quiet_reserveId id _ _ _ yields
  obtain ⟨_, _, got, rest⟩ := yields_bind yields
  cases got
  split at rest
  · cases rest
  · rename_i unused
    obtain ⟨_, _, changed, checking⟩ := yields_bind rest
    cases changed
    obtain ⟨rfl, few⟩ := checkMaterializedNodes_within checking
    refine ⟨quiet, ?_, rfl, fun _ => rfl, fun within =>
      ⟨few, within.transitions, within.components, within.keyed⟩⟩
    have size := ExtTreeSet.size_insert (t := before.allIds) (k := id)
    rw [if_neg (by simpa using unused)] at size
    simp only [AdvancedCompiler.materialized, size]
    omega

private theorem adds_registerStepRepeat
    (yields : registerStepRepeat step before = .ok ((), after)) :
    Adds 0 0 step.repeatIds before after := by
  have whole := adds_forM (fun _ => 0) (fun id => [id]) ?_ yields
  · simpa using whole
  · intro id _ before after yields
    obtain ⟨_, _, got, rest⟩ := yields_bind yields
    cases got
    split at rest
    · cases rest
    · rename_i unused
      cases rest
      refine ⟨⟨rfl, rfl, rfl, rfl, fun _ member => member⟩, rfl, rfl, ?_, fun within =>
        ⟨within.nodes, within.transitions, within.components, within.keyed⟩⟩
      intro other
      have absent : id ∉ before.repeatIds := by simpa using unused
      unfold AdvancedCompiler.registered
      simp only [ExtTreeSet.mem_insert, Std.LawfulEqOrd.compare_eq_iff_eq]
      by_cases same : id = other
      · subst same
        simp [absent]
      · have none : List.count other [id] = 0 := by simp [same]
        rw [none]
        simp [same]

private theorem adds_registerNodeRepeats
    (yields : registerNodeRepeats node before = .ok ((), after)) :
    Adds 0 0 node.repeatIds before after := by
  cases node with
  | step node => exact adds_registerStepRepeat yields
  | partitionedStep node => exact adds_registerStepRepeat yields
  | split node =>
    have whole := adds_forM (fun _ => 0) (fun step : StepNode => step.repeatIds)
      (fun step _ _ _ yields => adds_registerStepRepeat yields) yields
    simpa [FlowNode.repeatIds] using whole
  | decision _ | nestedJob _ | customLeaf _ | join _ =>
    cases yields
    exact Adds.refl _

/-- The nodes and nested flows of a prepared scope are those its graph declares. -/
structure Gathered (graph : FlowGraph) (prepared : PreparedScope) : Prop where
  nodes : ∀ (id : NodeId) node, prepared.localNodes[id]? = some node ↔
    node ∈ graph.nodes ∧ node.id = id
  flows : ∀ (id : NodeId) inner, prepared.nested[id]? = some inner ↔
    ∃ flow ∈ graph.nestedFlows, flow.id = id ∧ flow.graph = inner

theorem insertFresh_iff {taken : NodeId → Bool} {entries : List (NodeId × Value)}
    {result : NodeMap Value} (inserted : insertFresh taken ∅ entries = .ok result) (id : NodeId)
    (value : Value) : result[id]? = some value ↔ (id, value) ∈ entries := by
  have whole := insertFresh_inserted inserted
  constructor
  · intro found
    by_contra absent
    have outside : id ∉ entries.map (·.1) := by
      intro member
      obtain ⟨entry, present, rfl⟩ := List.mem_map.mp member
      rw [whole.here entry present] at found
      cases found
      exact absent present
    rw [whole.others id outside] at found
    simp at found
  · exact whole.here (id, value)

private theorem gathered_of_collected
    (collected : collectNodes graph.nodes = .ok prepared.localNodes)
    (gathered : collectNested prepared.localNodes graph.nestedFlows = .ok prepared.nested) :
    Gathered graph prepared := by
  constructor
  · intro id node
    rw [insertFresh_iff collected, List.mem_map]
    constructor
    · rintro ⟨other, member, same⟩
      cases same
      exact ⟨member, rfl⟩
    · rintro ⟨member, rfl⟩
      exact ⟨node, member, rfl⟩
  · intro id inner
    rw [insertFresh_iff gathered, List.mem_map]
    refine exists_congr fun flow => and_congr Iff.rfl ?_
    rw [Prod.mk.injEq]

theorem adds_prepareScope (yields : prepareScope graph before = .ok (prepared, after)) :
    Adds (prepared.localNodes.size + prepared.nested.size) graph.transitions.length
      (prepared.localNodes.values.flatMap (·.repeatIds)) before after ∧ Gathered graph prepared := by
  obtain ⟨_, first, narrowed, rest⟩ := yields_bind yields
  obtain ⟨_, second, installed, rest⟩ := yields_bind rest
  obtain ⟨_, third, counted, scope⟩ := yields_bind rest
  have components := adds_forM (fun _ => 0) (fun _ => [])
    (fun _ _ _ _ yields => adds_installScopedComponent yields) installed
  have early := ((adds_narrowRestartPolicy narrowed).trans components).trans
    (adds_countTransitions counted)
  cases entry : graph.entry with
  | none =>
    rw [entry] at scope
    cases scope
  | some declaredEntry =>
    rw [entry] at scope
    obtain ⟨localNodes, fourth, collecting, registering⟩ := yields_bind scope
    obtain ⟨collected, rfl⟩ := yields_lift collecting
    obtain ⟨_, fifth, registered, gathering⟩ := yields_bind registering
    obtain ⟨nested, sixth, lifted, reserving⟩ := yields_bind gathering
    obtain ⟨gathered, rfl⟩ := yields_lift lifted
    split at reserving
    · cases reserving
    · obtain ⟨_, seventh, reserved, ending⟩ := yields_bind reserving
      obtain ⟨rfl, rfl⟩ := yields_pure ending
      have repeats := adds_forM (fun _ => 0) (fun node : FlowNode FlowGraph => node.repeatIds)
        (fun _ _ _ _ yields => adds_registerNodeRepeats yields) registered
      have places := adds_forM (fun _ => 1) (fun _ => [])
        (fun _ _ _ _ yields => adds_reserveId yields) reserved
      refine ⟨?_, gathered_of_collected collected gathered⟩
      simpa [flatMap_none] using (early.trans repeats).trans places

end Adds

section Tallied

/-- A node is declared by a flow, by a flow nested in it, or by a flow branch of it. -/
inductive Declares : FlowGraph → FlowNode FlowGraph → Prop
  | own {graph : FlowGraph} {node : FlowNode FlowGraph} (member : node ∈ graph.nodes) :
      Declares graph node
  | nested {graph : FlowGraph} {node : FlowNode FlowGraph} {flow : NestedFlow FlowGraph}
      (member : flow ∈ graph.nestedFlows) (inner : Declares flow.graph node) : Declares graph node
  | branch {graph inner : FlowGraph} {node : FlowNode FlowGraph} {split : SplitNode FlowGraph}
      {branch : SplitBranch FlowGraph} (member : .split split ∈ graph.nodes)
      (among : branch ∈ split.branches) (flow : branch.flow = some inner)
      (declared : Declares inner node) : Declares graph node

/-- What holds of every plan on the way. -/
structure Rooted (compiler : AdvancedCompiler) : Prop where
  within : compiler.Within
  reserved : ∀ (key : NodeId × Nat) scope, compiler.splitBranchScopes[key]? = some scope →
    key.1 ∈ compiler.allIds
  nodes : ∀ (id : NodeId) node, compiler.nodes[id]? = some node → node.id = id ∧ id ∈ compiler.allIds
  records : ∀ (owner : NodeId) record, compiler.nestedRecords[owner]? = some record →
    owner ∈ compiler.allIds ∧ compiler.nodes[owner]? = none
  branches : ∀ (id : NodeId) split, compiler.nodes[id]? = some (.split split) →
    ∀ (ordinal : Nat) (branch : SplitBranch FlowGraph), split.branches[ordinal]? = some branch →
      compiler.splitBranchScopes[(id, ordinal)]?.isSome = branch.flow.isSome

/-- A part of the compilation that installs the `declared` nodes. What it reserves is
what it installs, and beyond it `places`, `edges`, and `repeats`. Only `own` splits may
get branches among the identifiers already reserved. -/
structure Tallied (own : NodeId → Prop) (places edges : Nat) (repeats : RepeatId → Nat)
    (declared : FlowNode FlowGraph → Prop) (before after : AdvancedCompiler) : Prop where
  ids : ∀ id ∈ before.allIds, id ∈ after.allIds
  nodes : ∀ (id : NodeId) node, after.nodes[id]? = some node ↔
    before.nodes[id]? = some node ∨ (declared node ∧ node.id = id)
  fresh : ∀ node, declared node → node.id ∉ before.allIds ∧ node.id ∈ after.allIds
  records : ∀ id ∈ before.allIds, after.nestedRecords[id]? = before.nestedRecords[id]?
  keys : ∀ key : NodeId × Nat, key.1 ∈ before.allIds → ¬ own key.1 →
    after.splitBranchScopes[key]? = before.splitBranchScopes[key]?
  places : after.materialized + before.placed = before.materialized + after.placed + places
  edges : after.declaredTransitions + before.connected =
    before.declaredTransitions + after.connected + edges
  repeats : ∀ id, after.registered id + before.repeated id =
    before.registered id + after.repeated id + repeats id

variable {own : NodeId → Prop} {places places' edges edges' : Nat}
  {repeats repeats' : RepeatId → Nat} {declared declared' : FlowNode FlowGraph → Prop}
  {before after first second third : AdvancedCompiler}

theorem Tallied.of_adds {ids : List RepeatId} (adds : Adds places edges ids before after) :
    Tallied own places edges (fun id => ids.count id) (fun _ => False) before after := by
  have quiet := adds.quiet
  refine ⟨quiet.ids, ?_, fun _ => False.elim, ?_, ?_, ?_, ?_, ?_⟩
  · intro id node
    rw [quiet.nodes]
    simp
  · intro id _
    rw [quiet.records]
  · intro key _ _
    rw [quiet.branches]
  · have same : after.placed = before.placed := by
      rw [AdvancedCompiler.placed, quiet.nodes, quiet.records]
      rfl
    have more := adds.places
    omega
  · have same : after.connected = before.connected := by
      rw [AdvancedCompiler.connected, quiet.transitions, quiet.records]
      rfl
    have more := adds.edges
    omega
  · intro id
    have same : after.repeated id = before.repeated id := by
      rw [AdvancedCompiler.repeated, quiet.nodes]
      rfl
    have more := adds.repeats id
    omega

theorem Tallied.trans (left : Tallied own places edges repeats declared first second)
    (right : Tallied own places' edges' repeats' declared' second third) :
    Tallied own (places + places') (edges + edges') (fun id => repeats id + repeats' id)
      (fun node => declared node ∨ declared' node) first third := by
  refine ⟨fun id member => right.ids id (left.ids id member), ?_, ?_, ?_, ?_, ?_, ?_, ?_⟩
  · intro id node
    rw [right.nodes, left.nodes, or_and_right, or_assoc]
  · rintro node (here | later)
    · obtain ⟨unused, taken⟩ := left.fresh node here
      exact ⟨unused, right.ids _ taken⟩
    · obtain ⟨unused, taken⟩ := right.fresh node later
      exact ⟨fun old => unused (left.ids _ old), taken⟩
  · intro id member
    rw [right.records id (left.ids id member), left.records id member]
  · intro key member foreign
    rw [right.keys key (left.ids _ member) foreign, left.keys key member foreign]
  · have one := left.places
    have two := right.places
    omega
  · have one := left.edges
    have two := right.edges
    omega
  · intro id
    have one := left.repeats id
    have two := right.repeats id
    omega

/-- The same with other names for what is owned, reserved, and declared. -/
theorem Tallied.weaken {own' : NodeId → Prop}
    (tallied : Tallied own places edges repeats declared before after)
    (more : ∀ id, own id → own' id) (samePlaces : places = places') (sameEdges : edges = edges')
    (sameRepeats : ∀ id, repeats id = repeats' id) (same : ∀ node, declared node ↔ declared' node) :
    Tallied own' places' edges' repeats' declared' before after := by
  obtain rfl : repeats = repeats' := funext sameRepeats
  obtain rfl : declared = declared' := funext fun node => propext (same node)
  subst samePlaces
  subst sameEdges
  exact ⟨tallied.ids, tallied.nodes, tallied.fresh, tallied.records,
    fun key member foreign => tallied.keys key member fun owned => foreign (more _ owned),
    tallied.places, tallied.edges, tallied.repeats⟩

/-- Identifiers reserved before are installed no later. -/
theorem Tallied.kept (tallied : Tallied own places edges repeats declared before after) {id : NodeId}
    (member : id ∈ before.allIds) : after.nodes[id]? = before.nodes[id]? := by
  apply Option.ext
  intro node
  rw [tallied.nodes]
  constructor
  · rintro (old | ⟨new, rfl⟩)
    · exact old
    · exact absurd member (tallied.fresh node new).1
  · exact .inl

theorem Rooted.of_adds {ids : List RepeatId} (rooted : Rooted before)
    (adds : Adds places edges ids before after) : Rooted after := by
  have quiet := adds.quiet
  refine ⟨adds.within rooted.within, ?_, ?_, ?_, ?_⟩
  · intro key scope found
    rw [quiet.branches] at found
    exact quiet.ids _ (rooted.reserved key scope found)
  · intro id node found
    rw [quiet.nodes] at found
    obtain ⟨same, member⟩ := rooted.nodes id node found
    exact ⟨same, quiet.ids id member⟩
  · intro owner record found
    rw [quiet.records] at found
    rw [quiet.nodes]
    obtain ⟨member, absent⟩ := rooted.records owner record found
    exact ⟨quiet.ids owner member, absent⟩
  · intro id split found
    rw [quiet.nodes] at found
    rw [quiet.branches]
    exact rooted.branches id split found

/-- Compiling a flow installs the nodes it declares, and reserves what it installs. -/
def Tallies (compile : FlowGraph → CompilerM CompiledFlowScope) : Prop :=
  ∀ graph before scope after, Rooted before → compile graph before = .ok (scope, after) →
    Rooted after ∧ Tallied (fun _ => False) 0 0 (fun _ => 0) (Declares graph) before after

end Tallied

end OxideBatch.Plan
