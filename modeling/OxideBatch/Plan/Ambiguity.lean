import OxideBatch.Plan.Lenient
import OxideBatch.Plan.Selection
import OxideBatch.Plan.Tally

/-! A flow whose declared transitions are ambiguous at any depth never compiles. -/

namespace OxideBatch.Plan

open OxideBatch.Core Program Guarding
open Std (ExtTreeMap ExtTreeSet)

/-- A flow comprises itself, its nested flows, and its flow branches, at any depth. -/
inductive Comprises : FlowGraph → FlowGraph → Prop
  | itself (graph : FlowGraph) : Comprises graph graph
  | nested {graph inner : FlowGraph} {flow : NestedFlow FlowGraph}
      (member : flow ∈ graph.nestedFlows) (within : Comprises flow.graph inner) :
      Comprises graph inner
  | branch {graph inner flow : FlowGraph} {split : SplitNode FlowGraph}
      {branch : SplitBranch FlowGraph} (member : .split split ∈ graph.nodes)
      (among : branch ∈ split.branches) (held : branch.flow = some flow)
      (within : Comprises flow inner) : Comprises graph inner

section Runs

variable {ε σ α β : Type} {state state' : σ}

/-- Every step of a loop that returns has returned. -/
private theorem forM_ran {body : α → StateT σ (Except ε) PUnit} {values : List α}
    (done : values.forM body state = .ok ((), state')) :
    ∀ value ∈ values, ∃ before after, body value before = .ok ((), after) := by
  induction values generalizing state with
  | nil => simp
  | cons first values ih =>
    obtain ⟨_, middle, here, rest⟩ := yields_bind done
    intro value member
    rcases List.mem_cons.mp member with rfl | later
    · exact ⟨state, middle, here⟩
    · exact ih rest value later

private theorem foldlM_ran {body : β → α → StateT σ (Except ε) β} {values : List α}
    {start result : β}
    (done : values.foldlM body start state = .ok (result, state')) :
    ∀ value ∈ values, ∃ held before next after, body held value before = .ok (next, after) := by
  induction values generalizing start state with
  | nil => simp
  | cons first values ih =>
    rw [List.foldlM_cons] at done
    obtain ⟨next, middle, here, rest⟩ := yields_bind done
    intro value member
    rcases List.mem_cons.mp member with rfl | later
    · exact ⟨start, state, next, middle, here⟩
    · exact ih rest value later

end Runs

section Scopes

/-- A source of transitions is no split. -/
theorem Partitioned.single {source : NodeId} {node : FlowNode FlowGraph}
    (partitioned : Partitioned localNodes nestedScopes transitions partitions)
    (unowned : nestedScopes.contains source = false) (declared : localNodes[source]? = some node)
    (own : partitions.1[source]? = some (edge :: edges)) : node.splitJoin? = none := by
  have filtered := partitioned.outgoing source unowned
  rw [edgesOf, own, Option.getD_some] at filtered
  have among : edge ∈ transitions.filter (·.source = source) := by
    rw [← filtered]
    exact List.mem_cons_self
  obtain ⟨present, same⟩ := List.mem_filter.mp among
  have bare := Assembled.validateTransition_bare (partitioned.valid edge present)
  rw [of_decide_eq_true same, declared] at bare
  exact bare

variable {descend : FlowGraph → CompilerM CompiledFlowScope}
  {before first second middle third fourth after : AdvancedCompiler}

/-- The transitions a scope declares for a nested owner or a node of its own are apart. -/
theorem Stages.outgoing_apart (stages : Stages descend graph before first second middle third
      fourth after prepared nestedScopes partitions nestedExits scope) (source : NodeId) :
    (graph.outgoing source).Pairwise Apart := by
  obtain ⟨ready, _, _⟩ := prepareScope_prepared stages.preparing
  have partitioned := partitionTransitions_partitioned stages.partitioning
  unfold FlowGraph.outgoing
  rw [← ready.transitions]
  by_cases owner : nestedScopes.contains source = true
  · rw [← partitioned.exits source owner]
    exact (validateNestedExits_sorted stages.sorting source owner).2
  · have unowned := Bool.eq_false_iff.mpr owner
    rw [← partitioned.outgoing source unowned]
    unfold edgesOf
    cases own : partitions.1[source]? with
    | none => exact .nil
    | some edges =>
      cases edges with
      | nil => exact .nil
      | cons edge edges =>
        obtain ⟨node, declared⟩ := partitioned.declared own
        have installed := install_installed stages.installing stages.connecting
        have single := partitioned.single unowned declared own
        obtain ⟨listed, present, valid⟩ := validateMember_edges (stages.member declared)
          (installed.localNode source node declared) single
        have sorted := installed.edges source ((edge :: edges).map (resolveEdge nestedScopes))
          (by simp [own])
        obtain rfl := Option.some.inj (sorted.symm.trans present)
        have apart := ((sortTransitions_perm _).pairwise_iff (Std.Symm.symm _ _)).mp valid.apart
        have same := samePatterns_resolved nestedScopes (edge :: edges)
        exact SamePatterns.apart (Eq.symm same) apart

private theorem materializeBranch_ran {id : NodeId} {ordinal : Nat} {branch : SplitBranch FlowGraph}
    (held : branch.flow = some flow)
    (yields : materializeBranch descend id ordinal branch before = .ok ((), after)) :
    ∃ start scope ending, descend flow start = .ok (scope, ending) := by
  obtain ⟨_, _, _, rest⟩ := yields_bind yields
  obtain ⟨_, start, _, branching⟩ := yields_bind rest
  rw [held] at branching
  obtain ⟨scope, ending, compiled, _⟩ := yields_bind branching
  exact ⟨start, scope, ending, compiled⟩

/-- The flows a scope holds directly are compiled with it. -/
theorem Stages.nested_ran (stages : Stages descend graph before first second middle third fourth
      after prepared nestedScopes partitions nestedExits scope) {flow : NestedFlow FlowGraph}
    (member : flow ∈ graph.nestedFlows) :
    ∃ start scope ending, descend flow.graph start = .ok (scope, ending) := by
  have gathered := (adds_prepareScope stages.preparing).2
  have present := ExtTreeMap.mem_toList_iff_getElem?_eq_some.mpr
    ((gathered.flows flow.id flow.graph).mpr ⟨flow, member, rfl, rfl⟩)
  obtain ⟨_, start, _, _, compiling⟩ := foldlM_ran stages.nesting _ present
  obtain ⟨scope, ending, compiled, _⟩ := yields_bind compiling
  exact ⟨start, scope, ending, compiled⟩

theorem Stages.branch_ran (stages : Stages descend graph before first second middle third fourth
      after prepared nestedScopes partitions nestedExits scope) {split : SplitNode FlowGraph}
    {branch : SplitBranch FlowGraph} (member : .split split ∈ graph.nodes)
    (among : branch ∈ split.branches) (held : branch.flow = some flow) :
    ∃ start scope ending, descend flow start = .ok (scope, ending) := by
  have gathered := (adds_prepareScope stages.preparing).2
  have present := ExtTreeMap.mem_toList_iff_getElem?_eq_some.mpr
    ((gathered.nodes split.id (.split split)).mpr ⟨member, rfl⟩)
  obtain ⟨owners, folded, _⟩ := materializeLocalStructure_yields stages.materializing
  obtain ⟨_, _, _, _, materializing⟩ := foldlM_ran folded _ present
  obtain ⟨_, _, branches⟩ := materializeSplit_yields materializing
  obtain ⟨ordinal, inside, rfl⟩ := List.getElem_of_mem among
  have numbered : (split.branches[ordinal], ordinal) ∈ split.branches.zipIdx := by
    rw [List.mk_mem_zipIdx_iff_getElem?]
    exact List.getElem?_eq_getElem inside
  obtain ⟨_, _, materialized⟩ := forM_ran branches _ numbered
  exact materializeBranch_ran held materialized

end Scopes

section Plans

/-- No flow of a compiled one is ambiguous. -/
private theorem compileScope_apart {graph inner : FlowGraph} (within : Comprises graph inner)
    (levels : Nat) (before : AdvancedCompiler)
    (yields : compileScope levels graph before = .ok (scope, after)) (source : NodeId) :
    (inner.outgoing source).Pairwise Apart := by
  induction within generalizing levels before scope after with
  | itself graph =>
    cases levels with
    | zero => cases yields
    | succ levels =>
      obtain ⟨_, _, _, _, _, _, _, _, _, stages⟩ := compileScopeWith_stages yields
      exact stages.outgoing_apart source
  | nested member _ ih =>
    cases levels with
    | zero => cases yields
    | succ levels =>
      obtain ⟨_, _, _, _, _, _, _, _, _, stages⟩ := compileScopeWith_stages yields
      obtain ⟨start, _, _, compiled⟩ := stages.nested_ran member
      exact ih levels start compiled
  | branch member among held _ ih =>
    cases levels with
    | zero => cases yields
    | succ levels =>
      obtain ⟨_, _, _, _, _, _, _, _, _, stages⟩ := compileScopeWith_stages yields
      obtain ⟨start, _, _, compiled⟩ := stages.branch_ran member among held
      exact ih levels start compiled

/-- A flow of the base format comprises no other. -/
theorem Comprises.plain {graph inner : FlowGraph} (within : Comprises graph inner)
    (plain : graph.requiresAdvancedFormat = false) : inner = graph := by
  simp only [FlowGraph.requiresAdvancedFormat, Bool.or_eq_false_iff, Bool.not_eq_false',
    List.isEmpty_iff, List.any_eq_false] at plain
  obtain ⟨⟨⟨⟨_, _⟩, _⟩, flows⟩, nodes⟩ := plain
  cases within with
  | itself => rfl
  | nested member =>
    rw [flows] at member
    cases member
  | branch member among held =>
    have linear := nodes _ member
    simp only [Bool.or_eq_true, not_or, FlowNode.isAdvanced, List.any_eq_true, not_exists,
      not_and] at linear
    exact absurd (by simp [held]) (linear.2 _ among)

theorem BaseStages.outgoing_apart (stages : BaseStages serde jobName revision graph entry nodes
      localScale outgoing definition) (source : NodeId) :
    (graph.outgoing source).Pairwise Apart := by
  have partitioned := partitionTransitions_partitioned (connect_partition stages.connected)
  unfold FlowGraph.outgoing
  rw [← partitioned.outgoing source (by simp)]
  unfold edgesOf
  cases own : outgoing[source]? with
  | none => exact .nil
  | some edges =>
    cases edges with
    | nil => exact .nil
    | cons edge edges =>
      obtain ⟨node, declared⟩ := partitioned.declared own
      have checked := forM_eq_ok stages.checked (source, node)
        (ExtTreeMap.mem_toList_iff_getElem?_eq_some.mpr declared)
      have single := partitioned.single (by simp) declared own
      simp only [checkOutgoing, checkOutgoingUnder, single, own, Option.isSome_none, Bool.false_eq_true, if_false,
        Option.getD_some] at checked
      exact apart_of_checkUnambiguous checked

private theorem compile_apart {graph inner : FlowGraph}
    (compiled : graph.compile serde jobName revision = .ok plan) (within : Comprises graph inner)
    (source : NodeId) : (inner.outgoing source).Pairwise Apart := by
  unfold FlowGraph.compile FlowGraph.compileUnder at compiled
  split at compiled
  · obtain ⟨⟨scope, compiler⟩, built, _⟩ := bind_eq_ok compiled
    exact compileScope_apart within _ _ built source
  · rename_i plain
    obtain ⟨entry, nodes, localScale, outgoing, definition, stages, rfl⟩ :=
      compileBase_stages compiled
    rw [within.plain (by simpa using plain)]
    exact stages.outgoing_apart source

end Plans

section Main

/-- Two transitions, one declared before the other, that are equally specific and both
match an exit code. -/
structure Confused (edges : List FlowTransition) (first second : FlowTransition)
    (code : ExitCode) : Prop where
  declared : [first, second].Sublist edges
  same : ExitPattern.specificity first.pattern = ExitPattern.specificity second.pattern
  left : ExitPattern.matches first.pattern code = true
  right : ExitPattern.matches second.pattern code = true

/-- At every node of a compiled plan that is no split, at most one transition prevails for
an exit code; the plan selects its target, and reports an unmapped outcome exactly where
none matches. A flow that comprises equally specific transitions of one source for one
code does not compile: it fails for ambiguity, or as it would without that check. -/
theorem selection_is_unambiguous (serde : Serde) (graph : FlowGraph) (jobName : JobName)
    (revision : DefinitionRevision) :
    (∀ plan, graph.compile serde jobName revision = .ok plan →
      ∀ (id : NodeId) node, plan.nodes[id]? = some node → node.splitJoin? = none → ∀ code,
        ∃ edges, plan.transitions[id]? = some edges ∧ SelectsBest plan id code edges) ∧
    ∀ inner, Comprises graph inner → ∀ source first second code,
      Confused (inner.outgoing source) first second code →
      ∃ failure, graph.compile serde jobName revision = .error failure ∧
        (failure.Ambiguous ∨ Lenient.compile serde graph jobName revision = .error failure) := by
  constructor
  · intro plan compiled id node found single code
    exact (compile_selective compiled).selectsBest found single code
  · intro inner within source first second code confused
    cases compiled : graph.compile serde jobName revision with
    | ok plan =>
      have apart := (compile_apart compiled within source).sublist confused.declared
      have separate := List.rel_of_pairwise_cons apart List.mem_cons_self
      exact False.elim (separate code confused.same confused.left confused.right)
    | error failure =>
      refine ⟨failure, rfl, ?_⟩
      rcases compile_guards serde graph jobName revision with same | ⟨other, ambiguous, failed⟩
      · exact .inr (same.symm.trans compiled)
      · rw [compiled] at failed
        cases failed
        exact .inl ambiguous

/-- A load that both completes and fails where its exit code is `COMPLETED`. -/
def confusedFlow (entry : Option NodeId) : FlowGraph :=
  let load : NodeId := ⟨"load", Eq.refl true⟩
  { entry
    nodes := [.decision ⟨load, ⟨"v1", Eq.refl true⟩, 1⟩]
    transitions := [⟨load, ⟨"C*", Eq.refl true⟩, .terminal .complete⟩,
      ⟨load, ⟨"*D", Eq.refl true⟩, .terminal .fail⟩]
    nestedFlows := []
    scopedComponents := []
    parameterIncrementer := none
    jobRestartPolicy := .restartable }

def completed : ExitCode := ⟨"COMPLETED", Eq.refl true⟩

private theorem confusedFlow_confused (entry : Option NodeId) :
    Confused ((confusedFlow entry).outgoing ⟨"load", by decide⟩)
      ⟨⟨"load", by decide⟩, ⟨"C*", by decide⟩, .terminal .complete⟩
      ⟨⟨"load", by decide⟩, ⟨"*D", by decide⟩, .terminal .fail⟩ completed where
  declared := List.Sublist.refl _
  same := by decide +kernel
  left := by decide +kernel
  right := by decide +kernel

/-- Whether a compilation was refused for its manifest. -/
def manifestRefused {Plan : Type} : Except PlanError Plan → Bool
  | .error (.manifest _) => true
  | _ => false

/-- The load of the fan-out selects one target, and a load that is confused is refused for
its ambiguity. -/
theorem selection_is_unambiguous_at_loads :
    (∃ plan edges, fanFlow.compile fanSerde fanJob ⟨"r1", by decide⟩ = .ok plan ∧
      plan.transitions[(⟨"load", by decide⟩ : NodeId)]? = some edges ∧
      SelectsBest plan ⟨"load", by decide⟩ completed edges) ∧
    ∃ failure, (confusedFlow (some ⟨"load", by decide⟩)).compile fanSerde fanJob
      ⟨"r1", by decide⟩ = .error failure ∧ failure.Ambiguous := by
  constructor
  · have named : ((fanFlow.compile fanSerde fanJob ⟨"r1", by decide⟩).toOption.bind fun plan =>
        plan.nodes[(⟨"load", by decide⟩ : NodeId)]?.map (·.splitJoin?)) = some none := by
      decide +kernel
    cases compiled : fanFlow.compile fanSerde fanJob ⟨"r1", by decide⟩ with
    | error failure =>
      rw [compiled] at named
      cases named
    | ok plan =>
      rw [compiled] at named
      obtain ⟨node, found, single⟩ := Option.map_eq_some_iff.mp named
      obtain ⟨edges, held, selects⟩ := (selection_is_unambiguous fanSerde fanFlow fanJob
        ⟨"r1", by decide⟩).1 plan compiled ⟨"load", by decide⟩ node found single completed
      exact ⟨plan, edges, rfl, held, selects⟩
  · obtain ⟨failure, refused, ambiguous | anyway⟩ := (selection_is_unambiguous fanSerde
      (confusedFlow (some ⟨"load", by decide⟩)) fanJob ⟨"r1", by decide⟩).2 _ (.itself _) _ _ _ _
      (confusedFlow_confused _)
    · exact ⟨failure, refused, ambiguous⟩
    · -- without the check of ambiguity it is the manifest that this serializer refuses
      have reported : manifestRefused ((confusedFlow (some ⟨"load", by decide⟩)).compile fanSerde
          fanJob ⟨"r1", by decide⟩) = false := by
        decide +kernel
      have otherwise : manifestRefused (Lenient.compile fanSerde
          (confusedFlow (some ⟨"load", by decide⟩)) fanJob ⟨"r1", by decide⟩) = true := by
        decide +kernel
      rw [refused] at reported
      rw [anyway] at otherwise
      cases failure with
      | manifest _ => cases reported
      | _ => cases otherwise

/-- Ambiguous transitions of a flow without an entry are not what compilation reports. -/
theorem ambiguity_behind_missing_entry :
    ¬ ∀ (graph : FlowGraph) source first second code,
      Confused (graph.outgoing source) first second code →
      ∃ node left right, graph.compile fanSerde fanJob ⟨"r1", by decide⟩ =
        .error (.ambiguousTransition node left right) := by
  intro always
  obtain ⟨node, left, right, refused⟩ := always (confusedFlow none) _ _ _ _
    (confusedFlow_confused none)
  have missing : (confusedFlow none).compile fanSerde fanJob ⟨"r1", by decide⟩ =
      .error .missingEntryNode := by
    rfl
  rw [missing] at refused
  cases refused

end Main

end OxideBatch.Plan
