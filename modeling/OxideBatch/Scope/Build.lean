import OxideBatch.Scope.Validate
import OxideBatch.Lib.History

/-! A scope over admissible registrations is built along its dependencies, and whatever was
built is cleaned up once, the last component first. -/

namespace OxideBatch.Scope

open OxideBatch.Plan (ScopeKind maxScopedComponents)
open OxideBatch.Lib Triple Relation

variable {Id Factory Inputs Handle : Type} [LinearOrder Id]

section Calls

/-- The component whose factory a call asks to create it. -/
def FactoryCall.creates : FactoryCall Id Factory Inputs Handle → Option Id
  | .create id _ _ _ _ => some id
  | .cleanup _ _ _ _ => none

/-- The component a call has constructed. -/
def FactoryCall.constructs : FactoryCall Id Factory Inputs Handle → Option (LiveEntry Id Factory Handle)
  | .create id factory _ _ (.handle handle) => some ⟨id, handle, factory⟩
  | _ => none

/-- The component a call asks to clean up. -/
def FactoryCall.cleans : FactoryCall Id Factory Inputs Handle → Option (LiveEntry Id Factory Handle)
  | .cleanup id factory handle _ => some ⟨id, handle, factory⟩
  | .create _ _ _ _ _ => none

/-- The component whose cleanup a call has seen fail. -/
def FactoryCall.failsCleanup : FactoryCall Id Factory Inputs Handle → Option Id
  | .cleanup id _ _ .failed | .cleanup id _ _ .panicked => some id
  | _ => none

def created (calls : List (FactoryCall Id Factory Inputs Handle)) : List Id :=
  calls.filterMap (·.creates)

def constructed (calls : List (FactoryCall Id Factory Inputs Handle)) :
    List (LiveEntry Id Factory Handle) :=
  calls.filterMap (·.constructs)

def cleaned (calls : List (FactoryCall Id Factory Inputs Handle)) :
    List (LiveEntry Id Factory Handle) :=
  calls.filterMap (·.cleans)

def failedCleanups (calls : List (FactoryCall Id Factory Inputs Handle)) : List Id :=
  calls.filterMap (·.failsCleanup)

variable (calls more : List (FactoryCall Id Factory Inputs Handle))

private theorem created_append : created (calls ++ more) = created calls ++ created more :=
  List.filterMap_append

private theorem constructed_append :
    constructed (calls ++ more) = constructed calls ++ constructed more :=
  List.filterMap_append

omit [LinearOrder Id] in
private theorem cleaned_append : cleaned (calls ++ more) = cleaned calls ++ cleaned more :=
  List.filterMap_append

omit [LinearOrder Id] in
private theorem failedCleanups_append :
    failedCleanups (calls ++ more) = failedCleanups calls ++ failedCleanups more :=
  List.filterMap_append

/-- A factory is called for a registered component, with the inputs of the component and
the handles its dependencies have produced before. -/
def Handed (registrations : List (ScopedComponentRegistration Id Factory))
    (inputs : SortedTable (@Prod.fst Id Inputs))
    (before : List (FactoryCall Id Factory Inputs Handle)) :
    FactoryCall Id Factory Inputs Handle → Prop
  | .create id factory given dependencies _ =>
    ∃ registration ∈ registrations, registration.id = id ∧ registration.factory = factory ∧
      inputs.lookup id = some (id, given) ∧
      dependencies.map Prod.fst = registration.dependencies ∧
      ∀ pair ∈ dependencies, ∃ maker, ⟨pair.1, pair.2, maker⟩ ∈ constructed before
  | .cleanup _ _ _ _ => True

end Calls

section Construct

variable {scope : ScopeKind} {registrations : List (ScopedComponentRegistration Id Factory)}
  {byId : Registrations Id Factory} {inputs : SortedTable (@Prod.fst Id Inputs)}
  {factories : Factories Id Factory Inputs Handle}
  {start builder : ScopeBuilder Id Factory Inputs Handle}

/-- What holds of a builder, also where a factory has just failed. -/
structure Building (registrations : List (ScopedComponentRegistration Id Factory))
    (byId : Registrations Id Factory) (inputs : SortedTable (@Prod.fst Id Inputs))
    (builder : ScopeBuilder Id Factory Inputs Handle) : Prop where
  registered : builder.registrations = byId
  given : builder.inputs = inputs
  order : builder.order = (constructed builder.calls).map (·.id)
  live : ∀ entry, entry ∈ builder.entries.entries ↔ entry ∈ constructed builder.calls
  once : (created builder.calls).Nodup
  handed : Throughout (Handed registrations inputs) builder.calls
  uncleaned : cleaned builder.calls = []

/-- Every component asked for has been constructed. -/
def Settled (builder : ScopeBuilder Id Factory Inputs Handle) : Prop :=
  created builder.calls = (constructed builder.calls).map (·.id)

/-- The factories called since are those of components that `among` admits. -/
def Extends (among : Id → Prop) (start builder : ScopeBuilder Id Factory Inputs Handle) : Prop :=
  ∃ more, builder.calls = start.calls ++ more ∧ ∀ id ∈ created more, among id

theorem Extends.refl {among : Id → Prop} : Extends among start start :=
  ⟨[], (List.append_nil _).symm, fun _ member => (List.not_mem_nil member).elim⟩

theorem Extends.trans {among : Id → Prop} {middle : ScopeBuilder Id Factory Inputs Handle}
    (first : Extends among start middle) (second : Extends among middle builder) :
    Extends among start builder := by
  obtain ⟨early, same, earlyAmong⟩ := first
  obtain ⟨late, same', lateAmong⟩ := second
  refine ⟨early ++ late, by rw [same', same, List.append_assoc], fun id member => ?_⟩
  rw [created_append, List.mem_append] at member
  rcases member with member | member
  · exact earlyAmong id member
  · exact lateAmong id member

theorem Extends.weaken {among wider : Id → Prop} (grown : Extends among start builder)
    (admits : ∀ id, among id → wider id) : Extends wider start builder := by
  obtain ⟨more, same, within⟩ := grown
  exact ⟨more, same, fun id member => admits id (within id member)⟩

theorem Extends.constructed {among : Id → Prop} (grown : Extends among start builder)
    {entry : LiveEntry Id Factory Handle} (member : entry ∈ constructed start.calls) :
    entry ∈ constructed builder.calls := by
  obtain ⟨more, same, _⟩ := grown
  rw [same, constructed_append]
  exact List.mem_append_left _ member

theorem Building.absent (building : Building registrations byId inputs builder)
    (settled : Settled builder) {id : Id} (unknown : builder.entries.lookup id = none) :
    id ∉ created builder.calls := by
  rw [settled]
  intro member
  obtain ⟨entry, made, same⟩ := List.mem_map.mp member
  exact builder.entries.lookup_none.mp unknown entry ((building.live entry).mpr made) same

/-- The table of the dependencies constructed so far. -/
structure Gathered (done : List Id) (held : SortedTable (@Prod.fst Id Handle))
    (builder : ScopeBuilder Id Factory Inputs Handle) : Prop where
  named : held.entries.map Prod.fst = done
  made : ∀ pair ∈ held.entries, ∃ maker, ⟨pair.1, pair.2, maker⟩ ∈ constructed builder.calls

/-- A call of a factory that answers with a handle. -/
theorem Building.creates {registration : ScopedComponentRegistration Id Factory} {given : Inputs}
    {dependencies : SortedTable (@Prod.fst Id Handle)} {answer : CreateAnswer Handle}
    (building : Building registrations byId inputs builder)
    (member : registration ∈ registrations)
    (found : inputs.lookup registration.id = some (registration.id, given))
    (gathered : Gathered registration.dependencies dependencies builder)
    (new : registration.id ∉ created builder.calls) :
    let call := FactoryCall.create registration.id registration.factory given dependencies.entries
      answer
    Throughout (Handed registrations inputs) (builder.calls ++ [call]) ∧
      (created (builder.calls ++ [call])).Nodup ∧ cleaned (builder.calls ++ [call]) = [] := by
  refine ⟨building.handed.snoc ?_, ?_, ?_⟩
  · exact ⟨registration, member, rfl, rfl, found, gathered.named, gathered.made⟩
  · rw [created_append, List.nodup_append]
    refine ⟨building.once, List.nodup_singleton _, ?_⟩
    intro id earlier other last same
    rw [same, List.mem_singleton.mp last] at earlier
    exact new earlier
  · rw [cleaned_append, building.uncleaned]
    rfl

/-- What a construction leaves: a builder that knows the component, or a failure. -/
def Constructed (registrations : List (ScopedComponentRegistration Id Factory))
    (byId : Registrations Id Factory) (inputs : SortedTable (@Prod.fst Id Inputs))
    (among : Id → Prop) (start : ScopeBuilder Id Factory Inputs Handle) (id : Id) :
    Except (Halt Id) Handle × ScopeBuilder Id Factory Inputs Handle → Prop :=
  Leaves (fun handle builder => (Building registrations byId inputs builder ∧ Settled builder) ∧
      Extends among start builder ∧ ∃ maker, ⟨id, handle, maker⟩ ∈ constructed builder.calls)
    fun halt builder => halt ≠ none ∧ Building registrations byId inputs builder

theorem Constructed.within {among wider : Id → Prop} {id : Id}
    {middle : ScopeBuilder Id Factory Inputs Handle}
    {result : Except (Halt Id) Handle × ScopeBuilder Id Factory Inputs Handle}
    (made : Constructed registrations byId inputs among middle id result)
    (grown : Extends wider start middle) (admits : ∀ id, among id → wider id) :
    Constructed registrations byId inputs wider start id result := by
  obtain ⟨halt | handle, builder⟩ := result
  · exact made
  · exact ⟨made.1, grown.trans (made.2.1.weaken admits), made.2.2⟩

private theorem runs_construct {fuel : Nat} {id : Id} :
    runs (construct factories (fuel + 1) id) builder =
      match builder.entries.lookup id with
      | some entry => (.ok entry.handle, builder)
      | none =>
        match builder.registrations.lookup id with
        | none => (.error (some (.new .missingDependency (some id))), builder)
        | some registration =>
          match runs (gather (construct factories fuel) registration.dependencies) builder with
          | (.error halt, middle) => (.error halt, middle)
          | (.ok dependencies, middle) =>
            match builder.inputs.lookup id with
            | none => (.error (some (.new .missingInputs (some id))), middle)
            | some given => runs (createComponent factories registration given.2 dependencies) middle
    := by
  change runs (match builder.entries.lookup id with | some entry => _ | none => _) builder = _
  cases builder.entries.lookup id with
  | some entry => rfl
  | none =>
    change runs (match builder.registrations.lookup id with | none => _ | some registration => _) builder = _
    cases builder.registrations.lookup id with
    | none => rfl
    | some registration =>
      change runs (gather (construct factories fuel) registration.dependencies >>= fun _ => _)
        builder = _
      rw [runs_bind]
      dsimp only
      rcases runs (gather (construct factories fuel) registration.dependencies) builder with
        ⟨halt | dependencies, middle⟩
      · rfl
      · change runs (match builder.inputs.lookup id with | none => _ | some given => _) middle = _
        cases builder.inputs.lookup id with
        | none => rfl
        | some given => rfl

private theorem runs_createComponent {registration : ScopedComponentRegistration Id Factory}
    {given : Inputs} {dependencies : SortedTable (@Prod.fst Id Handle)} :
    runs (createComponent factories registration given dependencies) builder =
      let answer := factories.create builder.calls registration.factory given dependencies.entries
      let called := { builder with
        calls := builder.calls ++ [FactoryCall.create registration.id registration.factory given
          dependencies.entries answer] }
      match answer with
      | .handle handle =>
        (.ok handle, { called with
          entries := called.entries.put ⟨registration.id, handle, registration.factory⟩
          order := called.order ++ [registration.id] })
      | .rejected => (.error (some (.new .factoryRejected (some registration.id))), called)
      | .panicked => (.error (some (.new .factoryPanicked (some registration.id))), called) := by
  change runs (match factories.create builder.calls registration.factory given dependencies.entries with
    | .handle handle => _ | .rejected => _ | .panicked => _) _ = _
  cases factories.create builder.calls registration.factory given dependencies.entries with
  | handle handle => rfl
  | rejected => rfl
  | panicked => rfl

/-- A factory that fails leaves what was built before. -/
theorem Building.fails {registration : ScopedComponentRegistration Id Factory} {given : Inputs}
    {dependencies : SortedTable (@Prod.fst Id Handle)} {answer : CreateAnswer Handle}
    (building : Building registrations byId inputs builder)
    (member : registration ∈ registrations)
    (found : inputs.lookup registration.id = some (registration.id, given))
    (gathered : Gathered registration.dependencies dependencies builder)
    (new : registration.id ∉ created builder.calls)
    (failed : (FactoryCall.create registration.id registration.factory given dependencies.entries
      answer).constructs = none) :
    Building registrations byId inputs { builder with
      calls := builder.calls ++ [FactoryCall.create registration.id registration.factory given
        dependencies.entries answer] } := by
  obtain ⟨handed, once, uncleaned⟩ := @Building.creates _ _ _ _ _ _ _ _ _ _ _ _ answer building
    member found gathered new
  have same : constructed (builder.calls ++ [FactoryCall.create registration.id
      registration.factory given dependencies.entries answer]) = constructed builder.calls := by
    rw [constructed_append, constructed, constructed, List.filterMap_cons_none failed]
    exact List.append_nil _
  refine ⟨building.registered, building.given, ?_, ?_, once, handed, uncleaned⟩
  · rw [same]
    exact building.order
  · rw [same]
    exact building.live

private theorem createComponent_spec {registration : ScopedComponentRegistration Id Factory}
    {given : Inputs} {dependencies : SortedTable (@Prod.fst Id Handle)}
    (building : Building registrations byId inputs builder) (settled : Settled builder)
    (member : registration ∈ registrations)
    (found : inputs.lookup registration.id = some (registration.id, given))
    (gathered : Gathered registration.dependencies dependencies builder)
    (new : registration.id ∉ created builder.calls) :
    Constructed registrations byId inputs (· = registration.id) builder registration.id
      (runs (createComponent factories registration given dependencies) builder) := by
  have unbuilt : ∀ entry ∈ builder.entries.entries, entry.id ≠ registration.id := by
    intro entry live same
    apply new
    rw [settled, ← same]
    exact List.mem_map_of_mem ((building.live entry).mp live)
  rw [runs_createComponent]
  cases factories.create builder.calls registration.factory given dependencies.entries with
  | handle handle =>
    obtain ⟨handed, once, uncleaned⟩ := @Building.creates _ _ _ _ _ _ _ _ _ _ _ _
      (.handle handle) building member found gathered new
    have made : constructed (builder.calls ++ [FactoryCall.create registration.id
        registration.factory given dependencies.entries (.handle handle)]) =
          constructed builder.calls ++ [⟨registration.id, handle, registration.factory⟩] :=
      constructed_append _ _
    refine ⟨⟨⟨building.registered, building.given, ?_, ?_, once, handed, uncleaned⟩, ?_⟩,
      ⟨_, rfl, ?_⟩, registration.factory, ?_⟩
    · rw [made, List.map_append, ← building.order]
      rfl
    · intro entry
      rw [made, SortedTable.mem_put, building.live, List.mem_append, List.mem_singleton, or_comm]
      refine or_congr_left (and_iff_left_of_imp fun earlier => ?_)
      exact unbuilt entry ((building.live entry).mpr earlier)
    · rw [Settled, made, List.map_append, ← settled]
      exact created_append _ _
    · intro id called
      exact List.mem_singleton.mp called
    · rw [made]
      exact List.mem_append_right _ List.mem_cons_self
  | rejected =>
    exact ⟨Option.some_ne_none _, building.fails member found gathered new rfl⟩
  | panicked =>
    exact ⟨Option.some_ne_none _, building.fails member found gathered new rfl⟩

/-- The next dependency stands behind those gathered before it. -/
theorem Gathered.put {done : List Id} {held : SortedTable (@Prod.fst Id Handle)} {id : Id}
    {handle : Handle} (gathered : Gathered done held builder) (last : ∀ earlier ∈ done, earlier < id)
    (made : ∃ maker, ⟨id, handle, maker⟩ ∈ constructed builder.calls) :
    Gathered (done ++ [id]) (held.put (id, handle)) builder := by
  have appended : (held.put (id, handle)).entries = held.entries ++ [(id, handle)] := by
    apply SortedTable.put_last
    intro pair member
    apply last
    rw [← gathered.named]
    exact List.mem_map_of_mem member
  constructor
  · rw [appended, List.map_append, gathered.named]
    rfl
  · intro pair member
    rw [appended] at member
    rcases List.mem_append.mp member with earlier | here
    · exact gathered.made pair earlier
    · rw [List.mem_singleton.mp here]
      exact made

theorem Gathered.extends {among : Id → Prop} {done : List Id}
    {held : SortedTable (@Prod.fst Id Handle)} (gathered : Gathered done held start)
    (grown : Extends among start builder) : Gathered done held builder := by
  refine ⟨gathered.named, fun pair member => ?_⟩
  obtain ⟨maker, made⟩ := gathered.made pair member
  exact ⟨maker, grown.constructed made⟩

/-- The loop over the dependencies of a component. -/
private theorem gather_spec {fuel : Nat} {dependencies : List Id} {among : Id → Prop}
    (sorted : dependencies.Pairwise (· < ·))
    (one : ∀ dependency ∈ dependencies, ∀ middle,
      Building registrations byId inputs middle → Settled middle →
      Constructed registrations byId inputs among middle dependency
        (runs (construct factories fuel dependency) middle))
    (building : Building registrations byId inputs start) (settled : Settled start) :
    Leaves (fun held builder => (Building registrations byId inputs builder ∧ Settled builder) ∧
        Extends among start builder ∧ Gathered dependencies held builder)
      (fun halt builder => halt ≠ none ∧ Building registrations byId inputs builder)
      (runs (gather (construct factories fuel) dependencies) start) := by
  refine Ends.foldlM (fun done held builder =>
    (Building registrations byId inputs builder ∧ Settled builder) ∧
      Extends among start builder ∧ Gathered done held builder) ?_ start
    ⟨⟨building, settled⟩, .refl, rfl, fun _ member => (List.not_mem_nil member).elim⟩
  rintro done dependency rest held whole middle ⟨⟨building, settled⟩, grown, gathered⟩
  have declared : dependency ∈ dependencies := by
    rw [whole]
    exact List.mem_append_right _ List.mem_cons_self
  have last : ∀ earlier ∈ done, earlier < dependency := by
    rw [whole] at sorted
    exact fun earlier member =>
      (List.pairwise_append.mp sorted).2.2 earlier member dependency List.mem_cons_self
  have called := one dependency declared middle building settled
  rw [runs_bind]
  rcases answer : runs (construct factories fuel dependency) middle with ⟨halt | handle, builder⟩
  · rw [answer] at called
    exact called
  · rw [answer] at called
    obtain ⟨sound, further, made⟩ := called
    exact ⟨sound, grown.trans further, (gathered.extends further).put last made⟩

private theorem construct_spec (collected : Collected scope registrations byId)
    (admissible : Admissible scope registrations) {fuel : Nat} {id : Id}
    (registered : id ∈ registrations.map (·.id))
    (shallow : Bounded (Depends registrations) id fuel)
    (building : Building registrations byId inputs start) (settled : Settled start) :
    Constructed registrations byId inputs (ReflTransGen (Depends registrations) id) start id
      (runs (construct factories fuel id) start) := by
  induction fuel generalizing start id with
  | zero => exact absurd shallow.positive (Nat.lt_irrefl 0)
  | succ fuel ih =>
    rw [runs_construct]
    cases known : start.entries.lookup id with
    | some entry =>
      obtain ⟨live, rfl⟩ := start.entries.lookup_some.mp known
      exact ⟨⟨building, settled⟩, .refl, entry.factory, (building.live entry).mp live⟩
    | none =>
      obtain ⟨registration, member, rfl⟩ := List.mem_map.mp registered
      rw [building.registered, collected.lookup.mpr ⟨member, rfl⟩]
      dsimp only
      have declared : ∀ dependency ∈ registration.dependencies,
          Depends registrations registration.id dependency :=
        fun dependency among => ⟨registration, member, rfl, among⟩
      have gathering := @gather_spec _ _ _ _ _ registrations byId inputs factories start fuel
        registration.dependencies (TransGen (Depends registrations) registration.id)
        registration.sorted (by
          intro dependency among middle building settled
          have inner := ih (admissible.closed registration member dependency among)
            (shallow.step (declared dependency among)) building settled
          exact inner.within .refl fun other => TransGen.head' (declared dependency among))
        building settled
      rcases answer : runs (gather (construct factories fuel) registration.dependencies) start with
        ⟨halt | dependencies, middle⟩
      · rw [answer] at gathering
        exact gathering
      · rw [answer] at gathering
        obtain ⟨⟨below, settledBelow⟩, grown, gathered⟩ := gathering
        have unbuilt : registration.id ∉ created middle.calls := by
          obtain ⟨more, same, within⟩ := grown
          rw [same, created_append, List.mem_append]
          rintro (earlier | later)
          · exact building.absent settled known earlier
          · exact admissible.acyclic _ (within _ later)
        have wider : Extends (ReflTransGen (Depends registrations) registration.id) start middle :=
          grown.weaken fun _ => TransGen.to_reflTransGen
        rw [building.given]
        cases found : inputs.lookup registration.id with
        | none => exact ⟨Option.some_ne_none _, below⟩
        | some given =>
          have keyed : inputs.lookup registration.id = some (registration.id, given.2) := by
            rw [found, ← inputs.key_of_lookup found]
          have made := @createComponent_spec _ _ _ _ _ _ _ _ factories _ _ _ _ below settledBelow
            member keyed gathered unbuilt
          refine made.within wider ?_
          rintro other rfl
          exact .refl

/-- The loop over the registered identifiers. -/
private theorem constructAll_spec (collected : Collected scope registrations byId)
    (admissible : Admissible scope registrations) {ids : List Id}
    (registered : ∀ id ∈ ids, id ∈ registrations.map (·.id)) :
    Leaves (fun _ builder => (Building registrations byId inputs builder ∧ Settled builder) ∧
        ∀ id ∈ ids, id ∈ (constructed builder.calls).map (·.id))
      (fun halt builder => halt ≠ none ∧ Building registrations byId inputs builder)
      (runs (constructAll factories ids) ⟨byId, inputs, .empty, [], []⟩) := by
  refine Ends.foldlM (fun done _ builder =>
    (Building registrations byId inputs builder ∧ Settled builder) ∧
      ∀ id ∈ done, id ∈ (constructed builder.calls).map (·.id)) ?_ _ ?_
  · rintro done id rest _ whole middle ⟨⟨building, settled⟩, built⟩
    have member : id ∈ registrations.map (·.id) := by
      apply registered
      rw [whole]
      exact List.mem_append_right _ List.mem_cons_self
    change Leaves _ _ (runs (if (middle.entries.lookup id).isSome then pure ()
      else construct factories maxScopedDependencyDepth id >>= fun _ => pure ()) middle)
    by_cases known : (middle.entries.lookup id).isSome = true
    · rw [if_pos known]
      refine ⟨⟨building, settled⟩, fun other earlier => ?_⟩
      obtain ⟨entry, found⟩ := Option.isSome_iff_exists.mp known
      obtain ⟨live, same⟩ := middle.entries.lookup_some.mp found
      rcases List.mem_append.mp earlier with before | last
      · exact built other before
      · rw [List.mem_singleton.mp last, ← same]
        exact List.mem_map_of_mem ((building.live entry).mp live)
    · rw [if_neg known, runs_bind]
      have called := @construct_spec _ _ _ _ _ scope registrations byId inputs factories middle
        collected admissible maxScopedDependencyDepth id member ?_ building settled
      · rcases answer : runs (construct factories maxScopedDependencyDepth id) middle with
          ⟨halt | handle, builder⟩
        · rw [answer] at called
          exact called
        · rw [answer] at called
          obtain ⟨sound, grown, maker, made⟩ := called
          refine ⟨sound, fun other earlier => ?_⟩
          rcases List.mem_append.mp earlier with before | last
          · obtain ⟨entry, present, same⟩ := List.mem_map.mp (built other before)
            exact List.mem_map.mpr ⟨entry, grown.constructed present, same⟩
          · rw [List.mem_singleton.mp last]
            exact List.mem_map.mpr ⟨_, made, rfl⟩
      · intro path chain
        have short := admissible.shallow (id :: path) chain
        exact short
  · refine ⟨⟨⟨rfl, rfl, rfl, fun _ => Iff.rfl, List.nodup_nil, throughout_nil, rfl⟩, rfl⟩, ?_⟩
    exact fun _ member => (List.not_mem_nil member).elim

end Construct

section Drain

variable {factories : Factories Id Factory Inputs Handle}

/-- The cleanup loop over the components that are still there, in the order they are
popped. -/
private theorem drain_spec {pending : List (LiveEntry Id Factory Handle)}
    {state : Draining Id Factory Inputs Handle}
    (live : ∀ entry, entry ∈ state.entries.entries ↔ entry ∈ pending)
    (distinct : (pending.map (·.id)).Nodup) :
    ∃ more, (drain factories (pending.map (·.id)) state).calls = state.calls ++ more ∧
      cleaned more = pending ∧ created more = [] ∧ constructed more = [] ∧
      (drain factories (pending.map (·.id)) state).failures =
        state.failures ++ failedCleanups more := by
  induction pending generalizing state with
  | nil => exact ⟨[], (List.append_nil _).symm, rfl, rfl, rfl, (List.append_nil _).symm⟩
  | cons entry pending ih =>
    rw [List.map_cons, List.nodup_cons] at distinct
    have found : state.entries.lookup entry.id = some entry :=
      state.entries.lookup_some.mpr ⟨(live entry).mpr List.mem_cons_self, rfl⟩
    rw [List.map_cons, drain, found]
    have left : ∀ other, other ∈ (cleanupEntry factories entry.id entry state).entries.entries ↔
        other ∈ pending := by
      intro other
      rw [cleanupEntry, SortedTable.retain, List.mem_filter, live, List.mem_cons, decide_eq_true_eq]
      constructor
      · rintro ⟨rfl | later, apart⟩
        · exact absurd rfl apart
        · exact later
      · intro later
        refine ⟨.inr later, fun same => distinct.1 ?_⟩
        rw [← same]
        exact List.mem_map_of_mem later
    obtain ⟨more, calls, cleans, creates, constructs, failures⟩ := ih left distinct.2
    refine ⟨.cleanup entry.id entry.factory entry.handle
      (factories.cleanup state.calls entry.factory entry.handle) :: more, ?_,
      congrArg (entry :: ·) cleans, creates, constructs, ?_⟩
    · refine calls.trans ?_
      rw [cleanupEntry, List.append_assoc, List.singleton_append]
    · refine failures.trans ?_
      rw [cleanupEntry]
      cases factories.cleanup state.calls entry.factory entry.handle with
      | released => rfl
      | failed => exact List.append_assoc _ _ _
      | panicked => exact List.append_assoc _ _ _

end Drain

section Order

variable {registrations : List (ScopedComponentRegistration Id Factory)}
  {inputs : SortedTable (@Prod.fst Id Inputs)}
  {calls : List (FactoryCall Id Factory Inputs Handle)}

omit [LinearOrder Id] in
/-- A constructed component is one a factory was asked for. -/
private theorem constructed_sublist (calls : List (FactoryCall Id Factory Inputs Handle)) :
    ((constructed calls).map (·.id)).Sublist (created calls) := by
  induction calls with
  | nil => exact List.Sublist.refl _
  | cons call calls ih =>
    cases call with
    | create id factory given dependencies answer =>
      cases answer with
      | handle handle => exact ih.cons_cons id
      | rejected => exact ih.cons id
      | panicked => exact ih.cons id
    | cleanup id factory handle answer => exact ih

private theorem created_of_constructed {entry : LiveEntry Id Factory Handle}
    (made : entry ∈ constructed calls) : entry.id ∈ created calls :=
  (constructed_sublist calls).subset (List.mem_map_of_mem made)

omit [LinearOrder Id] in
/-- A cleanup that failed was a cleanup. -/
private theorem failedCleanups_sublist (calls : List (FactoryCall Id Factory Inputs Handle)) :
    (failedCleanups calls).Sublist ((cleaned calls).map (·.id)) := by
  induction calls with
  | nil => exact List.Sublist.refl _
  | cons call calls ih =>
    cases call with
    | create id factory given dependencies answer => exact ih
    | cleanup id factory handle answer =>
      cases answer with
      | released => exact ih.cons id
      | failed => exact ih.cons_cons id
      | panicked => exact ih.cons_cons id

private theorem registered_of_created (handed : Throughout (Handed registrations inputs) calls)
    {id : Id}
    (asked : id ∈ created calls) : id ∈ registrations.map (·.id) := by
  obtain ⟨call, member, creates⟩ := List.mem_filterMap.mp asked
  obtain ⟨before, after, split⟩ := List.append_of_mem member
  have here := handed before call after split
  cases call with
  | cleanup other factory handle answer => cases creates
  | create other factory given dependencies answer =>
    cases creates
    obtain ⟨registration, present, same, _⟩ := here
    exact List.mem_map.mpr ⟨registration, present, same⟩

/-- No component depends on one constructed after it. -/
structure Layered (registrations : List (ScopedComponentRegistration Id Factory))
    (calls : List (FactoryCall Id Factory Inputs Handle)) : Prop where
  closed : ∀ entry ∈ constructed calls, ∀ dependency, Depends registrations entry.id dependency →
    dependency ∈ (constructed calls).map (·.id)
  layered : (constructed calls).Pairwise fun earlier later =>
    ¬ Depends registrations earlier.id later.id

theorem Layered.snoc {call : FactoryCall Id Factory Inputs Handle}
    (distinct : (registrations.map (·.id)).Nodup) (layered : Layered registrations calls)
    (handed : Handed registrations inputs calls call)
    (once : (created (calls ++ [call])).Nodup) : Layered registrations (calls ++ [call]) := by
  cases made : call.constructs with
  | none =>
    have same : constructed (calls ++ [call]) = constructed calls := by
      rw [constructed_append, constructed, constructed, List.filterMap_cons_none made]
      exact List.append_nil _
    constructor
    · rw [same]
      exact layered.closed
    · rw [same]
      exact layered.layered
  | some entry =>
    have more : constructed (calls ++ [call]) = constructed calls ++ [entry] := by
      rw [constructed_append, constructed, constructed, List.filterMap_cons_some made]
      rfl
    have new : entry.id ∉ (constructed calls).map (·.id) := by
      intro earlier
      obtain ⟨other, present, same⟩ := List.mem_map.mp earlier
      have again : entry.id ∈ created [call] := by
        apply created_of_constructed
        rw [constructed, List.filterMap_cons_some made]
        exact List.mem_cons_self
      rw [created_append, List.nodup_append] at once
      exact once.2.2 _ (same ▸ created_of_constructed present) _ again rfl
    have ready : ∀ dependency, Depends registrations entry.id dependency →
        dependency ∈ (constructed calls).map (·.id) := by
      rintro dependency ⟨other, present, same, declared⟩
      cases call with
      | cleanup id factory handle answer => cases made
      | create id factory given dependencies answer =>
        obtain ⟨registration, member, rfl, _, _, named, built⟩ := handed
        have identical : other = registration := by
          apply List.inj_on_of_nodup_map distinct present member
          rw [same]
          cases answer with
          | handle handle =>
            cases made
            rfl
          | rejected => cases made
          | panicked => cases made
        rw [identical, ← named] at declared
        obtain ⟨pair, among, rfl⟩ := List.mem_map.mp declared
        obtain ⟨maker, earlier⟩ := built pair among
        exact List.mem_map.mpr ⟨_, earlier, rfl⟩
    constructor
    · intro other member dependency depends
      rw [more, List.map_append]
      apply List.mem_append_left
      rw [more] at member
      rcases List.mem_append.mp member with earlier | last
      · exact layered.closed other earlier dependency depends
      · rw [List.mem_singleton.mp last] at depends
        exact ready dependency depends
    · rw [more, List.pairwise_append]
      refine ⟨layered.layered, List.pairwise_singleton _ _, ?_⟩
      intro other earlier last here depends
      rw [List.mem_singleton.mp here] at depends
      exact new (layered.closed other earlier entry.id depends)

private theorem layered_of_handed (distinct : (registrations.map (·.id)).Nodup)
    (handed : Throughout (Handed registrations inputs) calls) (once : (created calls).Nodup) :
    Layered registrations calls := by
  have carried := @Throughout.carries _ _
    (fun calls => (created calls).Nodup → Layered registrations calls) _ handed
    (fun _ => ⟨fun _ member => (List.not_mem_nil member).elim, .nil⟩)
    (by
      intro before call ih handed once
      have earlier := once
      rw [created_append, List.nodup_append] at earlier
      exact (ih earlier.1).snoc distinct handed once)
  exact carried once

end Order

section Scopes

variable {scope : ScopeKind} {registrations : List (ScopedComponentRegistration Id Factory)}
  {byId : Registrations Id Factory} {inputs : SortedTable (@Prod.fst Id Inputs)}
  {factories : Factories Id Factory Inputs Handle}
  {builder : ScopeBuilder Id Factory Inputs Handle}

/-- What was built is cleaned up once, every component ahead of those it depends on. -/
structure CleanedUp (registrations : List (ScopedComponentRegistration Id Factory))
    (built : List (LiveEntry Id Factory Handle))
    (calls : List (FactoryCall Id Factory Inputs Handle)) : Prop where
  reversed : cleaned calls = built.reverse
  distinct : ((cleaned calls).map (·.id)).Nodup
  outward : (cleaned calls).Pairwise fun earlier later =>
    ¬ Depends registrations later.id earlier.id

theorem Building.cleanedUp (building : Building registrations byId inputs builder)
    (distinct : (registrations.map (·.id)).Nodup)
    {calls : List (FactoryCall Id Factory Inputs Handle)}
    (reversed : cleaned calls = (constructed builder.calls).reverse) :
    CleanedUp registrations (constructed builder.calls) calls := by
  refine ⟨reversed, ?_, ?_⟩
  · rw [reversed, List.map_reverse, List.nodup_reverse]
    exact building.once.sublist (constructed_sublist builder.calls)
  · rw [reversed, List.pairwise_reverse]
    exact (layered_of_handed distinct building.handed building.once).layered

/-- The cleanup of everything a builder holds. -/
theorem Building.drains (building : Building registrations byId inputs builder)
    (history : List (FactoryCall Id Factory Inputs Handle)) :
    ∃ more, (drain factories builder.order.reverse ⟨builder.entries, history, []⟩).calls =
        history ++ more ∧
      cleaned more = (constructed builder.calls).reverse ∧ created more = [] ∧
      constructed more = [] ∧
      (drain factories builder.order.reverse ⟨builder.entries, history, []⟩).failures =
        failedCleanups more := by
  have distinct : (((constructed builder.calls).reverse).map (·.id)).Nodup := by
    rw [List.map_reverse, List.nodup_reverse]
    exact building.once.sublist (constructed_sublist builder.calls)
  have live : ∀ entry, entry ∈ builder.entries.entries ↔
      entry ∈ (constructed builder.calls).reverse := by
    intro entry
    rw [List.mem_reverse]
    exact building.live entry
  rw [building.order, ← List.map_reverse]
  exact @drain_spec _ _ _ _ _ factories _ ⟨builder.entries, history, []⟩ live distinct

/-- Calls that create nothing may come after any history. -/
private theorem handed_of_uncreated {more before : List (FactoryCall Id Factory Inputs Handle)}
    (uncreated : created more = []) {call : FactoryCall Id Factory Inputs Handle}
    (member : call ∈ more) : Handed registrations inputs before call := by
  cases call with
  | cleanup id factory handle answer => trivial
  | create id factory given dependencies answer =>
    have creates : id ∈ created more := List.mem_filterMap.mpr ⟨_, member, rfl⟩
    rw [uncreated] at creates
    cases creates

/-- A closed scope stays as it is. -/
private theorem close_closed {live : LiveScope Id Factory Handle} (closed : live.closed = true)
    (history : List (FactoryCall Id Factory Inputs Handle)) :
    live.close factories history = ([], live, history) := by
  rw [LiveScope.close, if_pos closed]

/-- What a scope built from admissible registrations does. -/
structure BuiltInOrder (registrations : List (ScopedComponentRegistration Id Factory))
    (inputs : SortedTable (@Prod.fst Id Inputs)) (factories : Factories Id Factory Inputs Handle)
    (result : Except (Halt Id) (LiveScope Id Factory Handle))
    (calls : List (FactoryCall Id Factory Inputs Handle)) : Prop where
  ends : result ≠ .error none
  once : (created calls).Nodup
  handed : Throughout (Handed registrations inputs) calls
  failed : ∀ failure, result = .error (some failure) →
    CleanedUp registrations (constructed calls) calls ∧
      failure.cleanupFailures = (failedCleanups calls).length
  built : ∀ live, result = .ok live →
    cleaned calls = [] ∧
    (∀ id, id ∈ (constructed calls).map (·.id) ↔ id ∈ registrations.map (·.id)) ∧
    ∀ history, ∃ more, (live.close factories history).2.2 = history ++ more ∧
      created more = [] ∧ CleanedUp registrations (constructed calls) more ∧
      (live.close factories history).1 = failedCleanups more ∧
      ∀ later, (live.close factories history).2.1.close factories later =
        ([], (live.close factories history).2.1, later)

/-- A build that failed: what the builder holds is drained. -/
theorem Building.failed (building : Building registrations byId inputs builder)
    (distinct : (registrations.map (·.id)).Nodup) {failure : ScopeBuildFailure Id} :
    BuiltInOrder registrations inputs factories
      (.error (some { failure with
        cleanupFailures := (drain factories builder.order.reverse
          ⟨builder.entries, builder.calls, []⟩).failures.length }))
      (drain factories builder.order.reverse ⟨builder.entries, builder.calls, []⟩).calls := by
  obtain ⟨more, calls, reversed, uncreated, unconstructed, failures⟩ :=
    @Building.drains _ _ _ _ _ _ _ _ factories _ building builder.calls
  rw [calls, failures]
  have cleans : cleaned (builder.calls ++ more) = (constructed builder.calls).reverse := by
    rw [cleaned_append, building.uncleaned, reversed, List.nil_append]
  have constructs : constructed (builder.calls ++ more) = constructed builder.calls := by
    rw [constructed_append, unconstructed, List.append_nil]
  have creates : created (builder.calls ++ more) = created builder.calls := by
    rw [created_append, uncreated, List.append_nil]
  refine ⟨by simp, ?_, ?_, ?_, fun _ same => (by cases same)⟩
  · rw [creates]
    exact building.once
  · exact building.handed.append fun call member _ => handed_of_uncreated uncreated member
  · intro other same
    cases same
    rw [constructs]
    refine ⟨building.cleanedUp distinct cleans, ?_⟩
    have unfailed : failedCleanups builder.calls = [] := by
      have short := failedCleanups_sublist builder.calls
      rw [building.uncleaned] at short
      exact List.sublist_nil.mp short
    rw [failedCleanups_append, unfailed, List.nil_append]

/-- A build that succeeded: its scope closes once. -/
theorem Building.built (building : Building registrations byId inputs builder)
    (distinct : (registrations.map (·.id)).Nodup)
    (all : ∀ id ∈ registrations.map (·.id), id ∈ (constructed builder.calls).map (·.id)) :
    BuiltInOrder registrations inputs factories
      (.ok ⟨scope, builder.entries, builder.order, false⟩) builder.calls := by
  refine ⟨by simp, building.once, building.handed, fun _ same => (by cases same), ?_⟩
  intro live same
  cases same
  refine ⟨building.uncleaned, fun id => ⟨?_, all id⟩, fun history => ?_⟩
  · intro member
    obtain ⟨entry, made, rfl⟩ := List.mem_map.mp member
    exact registered_of_created building.handed (created_of_constructed made)
  · obtain ⟨more, calls, reversed, uncreated, _, failures⟩ :=
      @Building.drains _ _ _ _ _ _ _ _ factories _ building history
    refine ⟨more, calls, uncreated, building.cleanedUp distinct reversed, failures, fun later => ?_⟩
    exact close_closed rfl later

private theorem build_spec (admissible : Admissible scope registrations)
    (collected : Collected scope registrations byId)
    (accepted : validateGraph scope registrations = .ok byId) :
    BuiltInOrder registrations inputs factories
      (LiveScope.build factories scope registrations inputs).1
      (LiveScope.build factories scope registrations inputs).2 := by
  have constructs := @constructAll_spec _ _ _ _ _ scope registrations byId inputs factories collected
    admissible (byId.entries.map (·.id)) (by
      intro id member
      obtain ⟨registration, held, same⟩ := List.mem_map.mp member
      exact List.mem_map.mpr ⟨registration, (collected.held registration).mp held, same⟩)
  rcases answer : runs (constructAll factories (byId.entries.map (·.id)))
    ⟨byId, inputs, .empty, [], []⟩ with ⟨(_ | failure) | _, builder⟩
  · rw [answer] at constructs
    exact absurd rfl constructs.1
  · rw [answer] at constructs
    obtain ⟨_, building⟩ := constructs
    have whole : LiveScope.build factories scope registrations inputs =
        (.error (some { failure with
          cleanupFailures := (drain factories builder.order.reverse
            ⟨builder.entries, builder.calls, []⟩).failures.length }),
          (drain factories builder.order.reverse ⟨builder.entries, builder.calls, []⟩).calls) := by
      rw [LiveScope.build, accepted]
      dsimp only
      rw [answer]
    rw [whole]
    exact building.failed admissible.distinct
  · rw [answer] at constructs
    obtain ⟨⟨building, _⟩, all⟩ := constructs
    have whole : LiveScope.build factories scope registrations inputs =
        (.ok ⟨scope, builder.entries, builder.order, false⟩, builder.calls) := by
      rw [LiveScope.build, accepted]
      dsimp only
      rw [answer]
    rw [whole]
    apply building.built admissible.distinct
    intro id member
    apply all
    obtain ⟨registration, present, same⟩ := List.mem_map.mp member
    exact List.mem_map.mpr ⟨registration, (collected.held registration).mpr present, same⟩

/-- The validation accepts exactly the admissible registrations. Over those a scope is
built along the dependencies, and what was built is cleaned up once, the other way. -/
theorem scoped_components_in_order (factories : Factories Id Factory Inputs Handle)
    (scope : ScopeKind) (registrations : List (ScopedComponentRegistration Id Factory))
    (inputs : SortedTable (@Prod.fst Id Inputs)) :
    validateGraph scope registrations ≠ .error none ∧
    ((∃ byId, validateGraph scope registrations = .ok byId) ↔ Admissible scope registrations) ∧
    (Admissible scope registrations → BuiltInOrder registrations inputs factories
      (LiveScope.build factories scope registrations inputs).1
      (LiveScope.build factories scope registrations inputs).2) := by
  have spec := validateGraph_spec scope registrations
  cases accepted : validateGraph scope registrations with
  | error halt =>
    rw [accepted] at spec
    refine ⟨?_, ⟨?_, fun admissible => absurd admissible spec.2⟩,
      fun admissible => absurd admissible spec.2⟩
    · intro exhausted
      cases exhausted
      exact spec.1 rfl
    · rintro ⟨byId, same⟩
      cases same
  | ok byId =>
    rw [accepted] at spec
    obtain ⟨collected, admissible⟩ := spec
    refine ⟨?_, ⟨fun _ => admissible, fun _ => ⟨byId, rfl⟩⟩, fun _ => ?_⟩
    · intro exhausted
      cases exhausted
    · exact build_spec admissible collected accepted

/-- A pool and a reader on top of it. -/
def pooledReader : List (ScopedComponentRegistration Nat String) :=
  [⟨.step, 2, [1], List.pairwise_singleton _ _, "reader"⟩, ⟨.step, 1, [], .nil, "pool"⟩]

/-- The reader's factory rejects, and the pool's cleanup panics. -/
def failingReader : Factories Nat String Unit Nat where
  create _ factory _ dependencies :=
    if factory = "reader" then .rejected else .handle dependencies.length
  cleanup _ _ _ := .panicked

def noInputs : SortedTable (@Prod.fst Nat Unit) :=
  (SortedTable.put .empty (1, ())).put (2, ())

theorem pooledReader_in_order :
    BuiltInOrder pooledReader noInputs failingReader
        (LiveScope.build failingReader .step pooledReader noInputs).1
        (LiveScope.build failingReader .step pooledReader noInputs).2 ∧
      cleaned (LiveScope.build failingReader .step pooledReader noInputs).2 = [⟨1, 0, "pool"⟩] := by
  have ordered := scoped_components_in_order failingReader .step pooledReader noInputs
  exact ⟨ordered.2.2 (ordered.2.1.mp ⟨_, rfl⟩), rfl⟩

end Scopes

end OxideBatch.Scope
