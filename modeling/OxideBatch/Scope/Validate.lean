import Mathlib
import OxideBatch.Scope.Live
import OxideBatch.Lib.Chains

/-! The validation of a scope accepts the registrations whose dependencies are registered,
free of cycles and shallow, and no others. -/

namespace OxideBatch.Scope

open OxideBatch.Plan (ScopeKind maxScopedComponents)
open OxideBatch.Lib Triple Relation

variable {Id Factory : Type} [LinearOrder Id] {scope : ScopeKind}
  {registrations : List (ScopedComponentRegistration Id Factory)}
  {byId : Registrations Id Factory}

/-- A registration under `id` declares the dependency. -/
def Depends (registrations : List (ScopedComponentRegistration Id Factory)) (id dependency : Id) :
    Prop :=
  ∃ registration ∈ registrations, registration.id = id ∧ dependency ∈ registration.dependencies

/-- What a scope asks of its registrations. -/
structure Admissible (scope : ScopeKind)
    (registrations : List (ScopedComponentRegistration Id Factory)) : Prop where
  few : registrations.length ≤ maxScopedComponents
  inScope : ∀ registration ∈ registrations, registration.scope = scope
  distinct : (registrations.map (·.id)).Nodup
  closed : ∀ registration ∈ registrations, ∀ dependency ∈ registration.dependencies,
    dependency ∈ registrations.map (·.id)
  acyclic : ∀ id, ¬ TransGen (Depends registrations) id id
  shallow : ∀ chain, List.IsChain (Depends registrations) chain →
    chain.length ≤ maxScopedDependencyDepth

section Collect

/-- The table of registrations that all belong to the scope and repeat no identifier. -/
structure Collected (scope : ScopeKind)
    (registrations : List (ScopedComponentRegistration Id Factory))
    (byId : Registrations Id Factory) : Prop where
  held : ∀ registration, registration ∈ byId.entries ↔ registration ∈ registrations
  inScope : ∀ registration ∈ registrations, registration.scope = scope
  distinct : (registrations.map (·.id)).Nodup

theorem Collected.lookup (collected : Collected scope registrations byId) {id : Id}
    {registration : ScopedComponentRegistration Id Factory} :
    byId.lookup id = some registration ↔ registration ∈ registrations ∧ registration.id = id := by
  rw [SortedTable.lookup_some, collected.held]

theorem Collected.absent (collected : Collected scope registrations byId) {id : Id} :
    byId.lookup id = none ↔ id ∉ registrations.map (·.id) := by
  rw [SortedTable.lookup_none, List.mem_map, not_exists]
  constructor
  · rintro none registration ⟨member, same⟩
    exact none registration ((collected.held registration).mpr member) same
  · intro none registration member same
    exact none registration ⟨(collected.held registration).mp member, same⟩

theorem Collected.snoc {registration : ScopedComponentRegistration Id Factory}
    (collected : Collected scope registrations byId) (here : registration.scope = scope)
    (new : byId.lookup registration.id = none) :
    Collected scope (registrations ++ [registration]) (byId.put registration) where
  held other := by
    rw [SortedTable.mem_put, List.mem_append, List.mem_singleton, collected.held, or_comm]
    constructor
    · rintro (⟨member, _⟩ | same)
      · exact .inl member
      · exact .inr same
    · rintro (member | same)
      · refine .inl ⟨member, ?_⟩
        exact (byId.lookup_none.mp new) other ((collected.held other).mpr member)
      · exact .inr same
  inScope other member := by
    rcases List.mem_append.mp member with earlier | last
    · exact collected.inScope other earlier
    · rw [List.mem_singleton.mp last]
      exact here
  distinct := by
    rw [List.map_append, List.nodup_append]
    refine ⟨collected.distinct, List.nodup_singleton _, ?_⟩
    rintro id member other last rfl
    rw [List.map_singleton, List.mem_singleton] at last
    subst last
    exact (collected.absent.mp new) member

private theorem collect_spec (registrations : List (ScopedComponentRegistration Id Factory)) :
    Gives (Collected scope registrations)
      (fun halt => halt ≠ none ∧
        ¬ ((∀ registration ∈ registrations, registration.scope = scope) ∧
          (registrations.map (·.id)).Nodup))
      (collect scope registrations) := by
  refine Gives.foldlM (Collected scope) ?_ ?_
  · intro done registration rest byId whole collected
    refine Gives.ite ?_ fun here => Gives.ite ?_ ?_
    · intro foreign
      refine ⟨Option.some_ne_none _, fun both => foreign (both.1 registration ?_)⟩
      rw [whole]
      exact List.mem_append_right _ List.mem_cons_self
    · intro known
      refine ⟨Option.some_ne_none _, fun both => ?_⟩
      have earlier : registration.id ∈ done.map (·.id) := by
        by_contra away
        rw [collected.absent.mpr away] at known
        cases known
      have apart := both.2
      rw [whole, List.map_append, List.nodup_append] at apart
      exact apart.2.2 _ earlier _ List.mem_cons_self rfl
    · intro unknown
      exact collected.snoc (not_not.mp here) (by simpa using unknown)
  · exact ⟨fun _ => Iff.rfl, fun _ member => (List.not_mem_nil member).elim, List.nodup_nil⟩

end Collect

/-- Every declared dependency is registered. -/
def Closed (registrations : List (ScopedComponentRegistration Id Factory)) : Prop :=
  ∀ registration ∈ registrations, ∀ dependency ∈ registration.dependencies,
    dependency ∈ registrations.map (·.id)

private theorem closedCheck_spec (collected : Collected scope registrations byId) :
    Gives (fun _ => Closed registrations) (fun halt => halt ≠ none ∧ ¬ Closed registrations)
      (closedCheck byId) := by
  have each : Gives (fun _ => ∀ registration ∈ byId.entries, ∀ dependency ∈ registration.dependencies,
      dependency ∈ registrations.map (·.id))
      (fun halt => halt ≠ none ∧ ¬ Closed registrations) (closedCheck byId) := by
    refine Gives.forM fun registration member => Gives.forM fun dependency declared => Gives.ite ?_ ?_
    · intro missing
      refine ⟨Option.some_ne_none _, fun closed => ?_⟩
      have absent : byId.lookup dependency = none := by simpa using missing
      exact collected.absent.mp absent
        (closed registration ((collected.held registration).mp member) dependency declared)
    · intro present
      change dependency ∈ registrations.map (·.id)
      by_contra away
      rw [collected.absent.mpr away] at present
      exact present rfl
  refine each.weaken (fun _ closed registration member => ?_) fun _ failed => failed
  exact closed registration ((collected.held registration).mpr member)

section Depths

/-- A dependency that leads back to itself, or a chain that is too long. -/
def Tangled (follow : Id → Id → Prop) : Prop :=
  (∃ id, TransGen follow id id) ∨ ∃ id depth, HasDepth follow id depth ∧
    maxScopedDependencyDepth < depth

/-- The memoised depths are right, and the stack repeats no registered identifier. -/
structure Validating (byId : Registrations Id Factory) (follow : Id → Id → Prop)
    (state : Validation Id) : Prop where
  memo : ∀ entry ∈ state.depths.entries,
    HasDepth follow entry.1 entry.2 ∧ entry.2 ≤ maxScopedDependencyDepth
  stacked : ∀ id ∈ state.stack, id ∈ byId.entries.map (·.id)
  nodup : state.stack.Nodup

/-- What a call of `validate_node` ends in. -/
def Validated (byId : Registrations Id Factory) (follow : Id → Id → Prop) (id : Id)
    (stack : List Id) : Except (Halt Id) (Nat × Validation Id) → Prop :=
  Gives (fun answer => HasDepth follow id answer.1 ∧ answer.1 ≤ maxScopedDependencyDepth ∧
      Validating byId follow answer.2 ∧ answer.2.stack = stack)
    fun halt => halt ≠ none ∧ Tangled follow

variable {state : Validation Id} {id : Id}

theorem Validating.short (validating : Validating byId (Depends registrations) state) :
    state.stack.length ≤ byId.entries.length := by
  have within := (List.Nodup.subperm validating.nodup validating.stacked).length_le
  rwa [List.length_map] at within

theorem Validating.push (validating : Validating byId (Depends registrations) state)
    (registered : id ∈ byId.entries.map (·.id)) (inactive : id ∉ state.stack) :
    Validating byId (Depends registrations) { state with stack := state.stack ++ [id] } := by
  refine ⟨validating.memo, ?_, ?_⟩
  · intro other stacked
    rcases List.mem_append.mp stacked with below | top
    · exact validating.stacked other below
    · rw [List.mem_singleton.mp top]
      exact registered
  · rw [List.nodup_append]
    refine ⟨validating.nodup, List.nodup_singleton _, ?_⟩
    intro other below top last same
    rw [same, List.mem_singleton.mp last] at below
    exact inactive below

theorem Validating.pop {depth : Nat} (validating : Validating byId (Depends registrations) state)
    (deep : HasDepth (Depends registrations) id depth) (shallow : depth ≤ maxScopedDependencyDepth) :
    Validating byId (Depends registrations)
      ⟨state.depths.put (id, depth), state.stack.dropLast⟩ := by
  refine ⟨?_, ?_, ?_⟩
  · intro entry stored
    rcases SortedTable.mem_placed stored with rfl | earlier
    · exact ⟨deep, shallow⟩
    · exact validating.memo entry earlier
  · exact fun other stacked => validating.stacked other (List.dropLast_subset _ stacked)
  · exact validating.nodup.sublist (List.dropLast_sublist _)

/-- The loop over the dependencies of a component on top of the stack. -/
private theorem validate_dependencies {fuel : Nat} {dependencies stack : List Id}
    (one : ∀ dependency ∈ dependencies, ∀ state, Validating byId (Depends registrations) state →
      state.stack = stack →
      Validated byId (Depends registrations) dependency stack (validateNode byId fuel dependency state))
    (declared : ∀ dependency ∈ dependencies, Depends registrations id dependency)
    (validating : Validating byId (Depends registrations) state) (top : state.stack = stack) :
    Gives (fun held => DepthSoFar (Depends registrations) id dependencies held.1 ∧
        Validating byId (Depends registrations) held.2 ∧ held.2.stack = stack)
      (fun halt => halt ≠ none ∧ Tangled (Depends registrations))
      (dependencies.foldlM (fun (held : Nat × Validation Id) dependency => do
        let (dependencyDepth, state) ← validateNode byId fuel dependency held.2
        return (max held.1 (dependencyDepth + 1), state)) (1, state)) := by
  refine Gives.foldlM (fun seen (held : Nat × Validation Id) => DepthSoFar (Depends registrations) id seen held.1 ∧
    Validating byId (Depends registrations) held.2 ∧ held.2.stack = stack) ?_
    ⟨.start, validating, top⟩
  rintro seen dependency rest ⟨depth, state⟩ whole ⟨soFar, validating, top⟩
  have among : dependency ∈ dependencies := by
    rw [whole]
    exact List.mem_append_right _ List.mem_cons_self
  refine (one dependency among state validating top).bind ?_
  rintro ⟨further, after⟩ ⟨deep, _, validating, top⟩
  exact ⟨soFar.look (declared dependency among) deep, validating, top⟩

private theorem validateNode_spec (collected : Collected scope registrations byId)
    (closed : Closed registrations) {fuel : Nat}
    (validating : Validating byId (Depends registrations) state)
    (registered : id ∈ registrations.map (·.id))
    (enough : byId.entries.length < fuel + state.stack.length)
    (path : List.IsChain (Depends registrations) (state.stack ++ [id])) :
    Validated byId (Depends registrations) id state.stack (validateNode byId fuel id state) := by
  induction fuel generalizing state id with
  | zero =>
    -- the stack repeats no identifier, so it never grows as long as the fuel
    have short := validating.short
    omega
  | succ fuel ih =>
    unfold validateNode
    cases known : state.depths.lookup id with
    | some entry =>
      obtain ⟨member, rfl⟩ := state.depths.lookup_some.mp known
      exact ⟨(validating.memo entry member).1, (validating.memo entry member).2, validating, rfl⟩
    | none =>
      refine Gives.ite ?_ fun inactive => ?_
      · intro active
        exact ⟨Option.some_ne_none _, .inl ⟨id, transGen_of_chain path active⟩⟩
      · obtain ⟨registration, member, rfl⟩ := List.mem_map.mp registered
        have found := collected.lookup.mpr ⟨member, rfl⟩
        rw [found]
        have declared : ∀ dependency ∈ registration.dependencies,
            Depends registrations registration.id dependency :=
          fun dependency among => ⟨registration, member, rfl, among⟩
        have pushed := validating.push
          (List.mem_map_of_mem ((collected.held registration).mpr member)) inactive
        refine (validate_dependencies ?_ declared pushed rfl).bind ?_
        · intro dependency among inner validating top
          rw [← top]
          apply ih validating (closed registration member dependency among)
          · rw [top, List.length_append, List.length_singleton]
            omega
          · rw [top]
            refine List.isChain_append.mpr ⟨path, .singleton dependency, ?_⟩
            intro last isLast next isNext
            simp only [List.getLast?_append, List.getLast?_singleton, Option.some_or,
              Option.mem_def, Option.some.injEq, List.head?_cons] at isLast isNext
            rw [← isLast, ← isNext]
            exact declared dependency among
        · rintro ⟨depth, after⟩ ⟨soFar, validating, top⟩
          have deep : HasDepth (Depends registrations) registration.id depth := by
            apply soFar.finish
            rintro dependency ⟨other, present, same, among⟩
            have equal := Option.some_inj.mp
              ((collected.lookup.mpr ⟨present, same⟩).symm.trans found)
            rw [← equal]
            exact among
          refine Gives.ite ?_ fun short => ?_
          · intro long
            exact ⟨Option.some_ne_none _, .inr ⟨_, depth, deep, long⟩⟩
          · have shallow := Nat.le_of_not_lt short
            refine ⟨deep, shallow, validating.pop deep shallow, ?_⟩
            change after.stack.dropLast = state.stack
            rw [top, List.dropLast_concat]

private theorem depthCheck_spec (collected : Collected scope registrations byId)
    (closed : Closed registrations) :
    Gives (fun _ => ∀ registration ∈ registrations,
        Bounded (Depends registrations) registration.id maxScopedDependencyDepth)
      (fun halt => halt ≠ none ∧ Tangled (Depends registrations)) (depthCheck byId) := by
  have visited : Gives (fun state => (Validating byId (Depends registrations) state ∧
      state.stack = []) ∧ ∀ registration ∈ byId.entries,
        Bounded (Depends registrations) registration.id maxScopedDependencyDepth)
      (fun halt => halt ≠ none ∧ Tangled (Depends registrations)) (depthCheck byId) := by
    refine Gives.foldlM (fun (done : List (ScopedComponentRegistration Id Factory)) state =>
      (Validating byId (Depends registrations) state ∧ state.stack = []) ∧ ∀ registration ∈ done,
        Bounded (Depends registrations) registration.id maxScopedDependencyDepth) ?_ ?_
    · rintro done registration rest state whole ⟨⟨validating, top⟩, bounded⟩
      have member : registration ∈ registrations := by
        rw [← collected.held, whole]
        exact List.mem_append_right _ List.mem_cons_self
      have called := @validateNode_spec _ _ _ _ _ _ state registration.id collected closed
        (byId.entries.length + 1) validating (List.mem_map_of_mem member) (by omega)
        (by rw [top]; exact .singleton _)
      refine called.bind ?_
      rintro ⟨depth, after⟩ ⟨deep, shallow, validating, same⟩
      refine ⟨⟨validating, same.trans top⟩, fun other among => ?_⟩
      rcases List.mem_append.mp among with earlier | last
      · exact bounded other earlier
      · rw [List.mem_singleton.mp last]
        exact deep.bounded.weaken shallow
    · exact ⟨⟨⟨fun _ member => (List.not_mem_nil member).elim,
        fun _ member => (List.not_mem_nil member).elim, List.nodup_nil⟩, rfl⟩,
        fun _ member => (List.not_mem_nil member).elim⟩
  refine visited.weaken (fun _ found registration member => ?_) fun _ failed => failed
  exact found.2 registration ((collected.held registration).mpr member)

end Depths

/-- Where the components of a closed scope start short chains only, every chain is short
and leads nowhere back. -/
private theorem admissible_of_bounded (few : registrations.length ≤ maxScopedComponents)
    (collected : Collected scope registrations byId) (closed : Closed registrations)
    (bounded : ∀ registration ∈ registrations,
      Bounded (Depends registrations) registration.id maxScopedDependencyDepth) :
    Admissible scope registrations where
  few := few
  inScope := collected.inScope
  distinct := collected.distinct
  closed := closed
  acyclic := by
    intro id cycle
    obtain ⟨next, ⟨registration, member, rfl, _⟩, _⟩ := TransGen.head'_iff.mp cycle
    exact (bounded registration member).acyclic cycle
  shallow := by
    intro chain linked
    cases chain with
    | nil => exact Nat.zero_le _
    | cons first rest =>
      cases rest with
      | nil => exact Nat.succ_le_of_lt (Nat.zero_lt_succ 31)
      | cons second rest =>
        obtain ⟨⟨registration, member, rfl, _⟩, _⟩ := List.isChain_cons_cons.mp linked
        exact bounded registration member (second :: rest) linked

theorem Admissible.untangled (admissible : Admissible scope registrations) :
    ¬ Tangled (Depends registrations) := by
  rintro (⟨id, cycle⟩ | ⟨id, depth, deep, long⟩)
  · exact admissible.acyclic id cycle
  · obtain ⟨path, linked, length⟩ := deep.reached
    have short := admissible.shallow (id :: path) linked
    rw [List.length_cons] at short
    omega

/-- The validation ends, and accepts the admissible registrations and no others. -/
theorem validateGraph_spec (scope : ScopeKind)
    (registrations : List (ScopedComponentRegistration Id Factory)) :
    Gives (fun byId => Collected scope registrations byId ∧ Admissible scope registrations)
      (fun halt => halt ≠ none ∧ ¬ Admissible scope registrations)
      (validateGraph scope registrations) := by
  refine Gives.ite ?_ fun few => ?_
  · intro many
    exact ⟨Option.some_ne_none _, fun admissible => Nat.not_le.mpr many admissible.few⟩
  · have first := (collect_spec registrations).weaken (fun _ collected => collected)
      fun halt (failed : halt ≠ none ∧ _) =>
        (⟨failed.1, fun admissible => failed.2 ⟨admissible.inScope, admissible.distinct⟩⟩ :
          halt ≠ none ∧ ¬ Admissible scope registrations)
    refine first.bind fun byId collected => ?_
    have second := (closedCheck_spec collected).weaken (fun _ closed => closed)
      fun halt (failed : halt ≠ none ∧ _) =>
        (⟨failed.1, fun admissible => failed.2 admissible.closed⟩ :
          halt ≠ none ∧ ¬ Admissible scope registrations)
    refine second.bind fun _ closed => ?_
    have third := (depthCheck_spec collected closed).weaken (fun _ bounded => bounded)
      fun halt (failed : halt ≠ none ∧ _) =>
        (⟨failed.1, fun admissible => admissible.untangled failed.2⟩ :
          halt ≠ none ∧ ¬ Admissible scope registrations)
    refine third.bind fun _ bounded => ?_
    exact ⟨collected, admissible_of_bounded (Nat.le_of_not_lt few) collected closed bounded⟩

end OxideBatch.Scope
