import OxideBatch.Repository.Instances

/-! Nested-job links: what they name stays stored, and a child that completed is not run
again. -/

namespace OxideBatch.Repository

open OxideBatch.Core OxideBatch.Plan Program
open Std (ExtTreeMap ExtTreeSet)
open Tables

variable {reader : DefinitionReader} {operation : Operation} {state state' : MemoryState}

section Invariant

/-- An attempt that another one may follow. -/
def superseded : BatchStatus → Bool
  | .stopped | .failed | .abandoned => true
  | _ => false

/-- The child a link names is stored, under the instance, definition, and parameters the
link was made for; what was observed of its end is still so. -/
structure ChildHeld (tables : CoreTables) (link : NestedJobLink) : Prop where
  row : ∃ row, tables.jobExecutions[link.childJobExecutionId]? = some row ∧
    row.jobInstanceId = link.childJobInstanceId ∧
    ∀ terminal, link.terminal = some terminal → row.status.isFinished = true ∧
      terminal.status = row.status ∧ terminal.exitStatus = row.metadata.exitStatus
  definition : tables.executionDefinitions[link.childJobExecutionId]? = some link.childDefinition
  selected : ∃ name parameters, link.childDefinition.jobName = some name ∧
    tables.jobParameters[link.childJobExecutionId]? = some parameters ∧
    tables.instancesByKey[JobInstanceKey.new name parameters]? = some link.childJobInstanceId

structure Linked (tables : CoreTables) : Prop where
  indexed : Indexed tables
  superseded : ∀ (id : JobInstanceId) (listed : List JobExecutionId),
    tables.jobExecutionsByInstance[id]? = some listed → ∀ execution ∈ listed.dropLast,
      ∀ row, tables.jobExecutions[execution]? = some row → superseded row.status = true
  children : ∀ (key : JobExecutionId × NodeId) (link : NestedJobLink),
    tables.nestedJobLinks[key]? = some link → ChildHeld tables link

/-- A link has recorded how an execution ended. -/
def Observed (state : MemoryState) (id : JobExecutionId) : Prop :=
  ∃ (key : JobExecutionId × NodeId) (link : NestedJobLink), state.nestedJobLinks[key]? = some link ∧
    link.childJobExecutionId = id ∧ link.terminal.isSome = true

/-- The operations that leave links true: a purge takes whole instances and none that is a
child, and no execution whose end a link has recorded is moved or enriched. -/
structure Operation.SparesChildren (state : MemoryState) (operation : Operation) : Prop where
  whole : operation.TakesWholeInstances state
  children : ∀ plan, operation = .applyPurge plan → ∀ (key : JobExecutionId × NodeId)
    (link : NestedJobLink), state.nestedJobLinks[key]? = some link →
      ¬ Taken plan.candidates link.childJobInstanceId
  transitions : ∀ id expected transition,
    operation = .transitionJobExecution id expected transition → ¬ Observed state id
  enrichments : ∀ id expected exitStatus,
    operation = .enrichJobExitStatus id expected exitStatus → ¬ Observed state id

private theorem linked_empty : Linked MemoryState.empty.core where
  indexed := indexed_empty
  superseded _ _ found := by simp [MemoryState.core, MemoryState.empty] at found
  children _ _ found := by simp [MemoryState.core, MemoryState.empty] at found

/-- A child stays held when its own rows and the keys in use stay. -/
theorem ChildHeld.of_tables {tables tables' : CoreTables} {link : NestedJobLink}
    (held : ChildHeld tables link)
    (rows : tables'.jobExecutions[link.childJobExecutionId]? =
      tables.jobExecutions[link.childJobExecutionId]?)
    (definitions : tables'.executionDefinitions[link.childJobExecutionId]? =
      tables.executionDefinitions[link.childJobExecutionId]?)
    (parameters : ∀ held, tables.jobParameters[link.childJobExecutionId]? = some held →
      tables'.jobParameters[link.childJobExecutionId]? = some held)
    (keys : ∀ key : JobInstanceKey, tables.instancesByKey[key]? = some link.childJobInstanceId →
      tables'.instancesByKey[key]? = some link.childJobInstanceId) : ChildHeld tables' link := by
  obtain ⟨name, params, named, stored, under⟩ := held.selected
  exact ⟨rows ▸ held.row, definitions ▸ held.definition, name, params, named,
    parameters params stored, keys _ under⟩

theorem Linked.of_tables {tables tables' : CoreTables} (linked : Linked tables)
    (keys : tables'.instancesByKey = tables.instancesByKey)
    (instances : tables'.instancesById = tables.instancesById)
    (rows : tables'.jobExecutions = tables.jobExecutions)
    (lists : tables'.jobExecutionsByInstance = tables.jobExecutionsByInstance)
    (definitions : tables'.executionDefinitions = tables.executionDefinitions)
    (parameters : tables'.jobParameters = tables.jobParameters)
    (links : tables'.nestedJobLinks = tables.nestedJobLinks) : Linked tables' := by
  refine ⟨linked.indexed.of_tables keys instances rows lists, ?_, ?_⟩
  · rw [lists, rows]
    exact linked.superseded
  · intro key link found
    rw [links] at found
    exact (linked.children key link found).of_tables (by rw [rows]) (by rw [definitions])
      (fun _ found => parameters ▸ found) fun _ found => keys ▸ found

end Invariant

section Steps

private theorem mem_dropLast_or_last {α : Type} {values : List α} {value : α}
    (member : value ∈ values) :
    value ∈ values.dropLast ∨ values.getLast? = some value := by
  cases last : values.getLast? with
  | none =>
    rw [List.getLast?_eq_none_iff.mp last] at member
    cases member
  | some final =>
    obtain ⟨front, rfl⟩ := List.getLast?_eq_some_iff.mp last
    simpa [eq_comm] using member

theorem Linked.entered {tables : CoreTables} (linked : Linked tables) {added : JobInstance}
    (free : tables.instancesByKey[added.key]? = none) (unused : added.id ∉ tables.instancesById) :
    Linked { tables with
      instancesByKey := tables.instancesByKey.insert added.key added.id
      instancesById := tables.instancesById.insert added.id added
      jobExecutionsByInstance := tables.jobExecutionsByInstance.insert added.id [] } := by
  refine ⟨linked.indexed.entered free unused, ?_, ?_⟩
  · intro id listed lists execution member
    rcases lookup_insert_cases lists with ⟨rfl, rfl⟩ | ⟨_, before⟩
    · cases member
    · exact linked.superseded id listed before execution member
  · intro key link found
    refine (linked.children key link found).of_tables rfl rfl (fun _ found => found) ?_
    intro key under
    have different : added.key ≠ key := by
      rintro rfl
      rw [free] at under
      cases under
    change (tables.instancesByKey.insert added.key added.id)[key]? = _
    rw [lookup_insert, if_neg different]
    exact under

theorem Linked.launched {supply : Supply} {instanceId : JobInstanceId}
    {definition : DefinitionIdentity} {upgraded : Bool} {execution : JobExecution}
    (linked : Linked state.core)
    (launched : Launched supply instanceId definition upgraded state execution state') :
    Linked state'.core := by
  have indexed := launched.indexed linked.indexed
  obtain ⟨listed, _, _, _, found, restarted, others, _, core⟩ := launched.tables
  rw [core] at indexed ⊢
  -- a stored execution is not the new one
  have other : ∀ {id : JobExecutionId} {row : JobExecution},
      state.jobExecutions[id]? = some row → execution.id ≠ id := by
    intro id row stored same
    exact launched.unused (same ▸ mem_of_lookup stored)
  refine ⟨indexed, ?_, ?_⟩
  · intro id held lists earlier member row stored
    have listedUnder : ∃ (owner : JobInstanceId) (before : List JobExecutionId),
        state.jobExecutionsByInstance[owner]? = some before ∧ earlier ∈ before := by
      rcases lookup_insert_cases lists with ⟨rfl, rfl⟩ | ⟨_, before⟩
      · exact ⟨_, listed, found, by simpa using member⟩
      · exact ⟨id, held, before, (List.dropLast_sublist _).subset member⟩
    obtain ⟨owner, before, under, among⟩ := listedUnder
    obtain ⟨row', stored', _⟩ := linked.indexed.listed.stored owner before under earlier among
    have same : row' = row := by
      have kept : (state.jobExecutions.insert execution.id execution)[earlier]? = some row := stored
      rw [lookup_insert, if_neg (other stored')] at kept
      exact Option.some.inj (stored'.symm.trans kept)
    subst same
    rcases lookup_insert_cases lists with ⟨rfl, rfl⟩ | ⟨_, before⟩
    · rw [List.dropLast_concat] at member
      rcases mem_dropLast_or_last member with earlier' | last
      · exact linked.superseded _ listed found earlier earlier' row' stored'
      · rcases (restarted earlier row' last stored').1 with stopped | failed
        · rw [stopped]
          rfl
        · rw [failed]
          rfl
    · exact linked.superseded id held before earlier member row' stored'
  · intro key link held
    have child := linked.children key link held
    obtain ⟨row, stored, _⟩ := child.row
    have different := other stored
    refine child.of_tables ?_ ?_ ?_ fun _ found => found
    · change (state.jobExecutions.insert execution.id execution)[link.childJobExecutionId]? = _
      rw [lookup_insert, if_neg different]
      rfl
    · change (state.executionDefinitions.insert execution.id definition)[link.childJobExecutionId]? = _
      rw [lookup_insert, if_neg different]
      rfl
    · intro parameters held
      exact (others _ different.symm).trans held

/-- A superseded attempt stays one. -/
theorem JobMoves.superseded {id : JobExecutionId} {before after : JobExecution}
    (moves : JobMoves operation id before after) (held : superseded before.status = true) :
    Repository.superseded after.status = true := by
  rcases moves with rfl | ⟨_, _, ⟨legal, _⟩ | ⟨unfinished, _⟩ | ⟨same, _⟩⟩
  · exact held
  · cases source : before.status <;> cases target : after.status <;>
      simp_all [Repository.superseded, isLegalInPlaceTransition]
  · cases source : before.status <;>
      simp_all [Repository.superseded, BatchStatus.isFinished]
  · rw [same]
    exact held

/-- A completed attempt stays completed. -/
theorem JobMoves.completed {id : JobExecutionId} {before after : JobExecution}
    (moves : JobMoves operation id before after) (held : before.status = .completed) :
    after.status = .completed := by
  rcases moves with rfl | ⟨_, _, ⟨legal, _⟩ | ⟨unfinished, _⟩ | ⟨same, _⟩⟩
  · exact held
  · rw [held] at legal
    cases target : after.status <;> rw [target] at legal <;> cases legal
  · rw [held] at unfinished
    cases unfinished
  · rw [same, held]

private theorem rel_some {α β : Type} {related : α → β → Prop} {left : Option α} {right : Option β}
    {value : α} (held : Option.Rel related left right) (is : left = some value) :
    ∃ other, right = some other ∧ related value other := by
  subst is
  cases held with
  | some holds => exact ⟨_, rfl, holds⟩

private theorem some_rel {α β : Type} {related : α → β → Prop} {left : Option α} {right : Option β}
    {value : β} (held : Option.Rel related left right) (is : right = some value) :
    ∃ other, left = some other ∧ related other value := by
  subst is
  cases held with
  | some holds => exact ⟨_, rfl, holds⟩

theorem Linked.moved (linked : Linked state.core) (moved : RowsMoved operation state state')
    (spares : operation.guarded = true → operation.SparesChildren state) :
    Linked state'.core := by
  have indexed := moved.indexed linked.indexed
  have core := moved.core
  rw [core] at indexed ⊢
  refine ⟨indexed, ?_, ?_⟩
  · intro id listed lists execution member row stored
    obtain ⟨before, stored', moves⟩ := some_rel (moved.jobs execution) stored
    exact moves.superseded (linked.superseded id listed lists execution member before stored')
  · intro key link found
    have child := linked.children key link found
    obtain ⟨before, stored, owner, observed⟩ := child.row
    obtain ⟨after, stored', moves⟩ := rel_some (moved.jobs link.childJobExecutionId) stored
    refine ⟨⟨after, stored', moves.owner.trans owner, fun terminal recorded => ?_⟩,
      child.definition, child.selected⟩
    obtain ⟨finished, status, exitStatus⟩ := observed terminal recorded
    have seen : Observed state link.childJobExecutionId :=
      ⟨key, link, found, rfl, by rw [recorded]; rfl⟩
    -- a finished row moves by an operation that names it only
    rcases moves with rfl | ⟨_, _, ⟨_, only⟩ | ⟨unfinished, _⟩ | ⟨_, expected, change, rfl⟩⟩
    · exact ⟨finished, status, exitStatus⟩
    · obtain ⟨expected, transition, rfl⟩ := only finished
      exact absurd seen ((spares rfl).transitions _ _ _ rfl)
    · rw [finished] at unfinished
      cases unfinished
    · exact absurd seen ((spares rfl).enrichments _ _ _ rfl)

theorem Linked.parametersStored {tables : CoreTables} (linked : Linked tables)
    {child : JobExecutionId} {parameters : JobParameters}
    (unset : tables.jobParameters[child]? = none) :
    Linked { tables with jobParameters := tables.jobParameters.insert child parameters } := by
  refine ⟨linked.indexed.of_tables rfl rfl rfl rfl, linked.superseded, ?_⟩
  intro key link found
  refine (linked.children key link found).of_tables rfl rfl (fun held stored => ?_)
    fun _ found => found
  have different : child ≠ link.childJobExecutionId := by
    rintro rfl
    rw [unset] at stored
    cases stored
  change (tables.jobParameters.insert child parameters)[link.childJobExecutionId]? = _
  rw [lookup_insert, if_neg different]
  exact stored

/-- A link whose child is held may be stored. -/
theorem Linked.stored {tables : CoreTables} (linked : Linked tables)
    {key : JobExecutionId × NodeId} {link : NestedJobLink} (held : ChildHeld tables link)
    (links : ExtTreeMap (JobInstanceId × NodeId) (List JobExecutionId)) :
    Linked { tables with
      nestedJobLinks := tables.nestedJobLinks.insert key link
      nestedJobLinksByInstance := links } := by
  refine ⟨linked.indexed.of_tables rfl rfl rfl rfl, linked.superseded, ?_⟩
  intro other link' found
  rcases lookup_insert_cases found with ⟨rfl, rfl⟩ | ⟨_, before⟩
  · exact ⟨held.row, held.definition, held.selected⟩
  · have child := linked.children other link' before
    exact ⟨child.row, child.definition, child.selected⟩

/-- A child that is listed under an instance is of it. -/
theorem Linked.owned {tables : CoreTables} (linked : Linked tables) {child : JobExecutionId}
    {id : JobInstanceId} {listed : List JobExecutionId}
    (lists : tables.jobExecutionsByInstance[id]? = some listed) (member : child ∈ listed) :
    ∃ row, tables.jobExecutions[child]? = some row ∧ row.jobInstanceId = id :=
  linked.indexed.listed.stored id listed lists child member

theorem ChildSelected.held {link : NestedJobLink} (linked : Linked state.core)
    (selected : ChildSelected link state) (unobserved : link.terminal = none) :
    ChildHeld state.core link := by
  obtain ⟨listed, lists, member⟩ := selected.listed
  obtain ⟨row, stored, owner⟩ := linked.owned lists member
  refine ⟨⟨row, stored, owner, ?_⟩, selected.definition, selected.selected⟩
  rw [unobserved]
  simp

theorem ChildContinued.held {prior link : NestedJobLink} (linked : Linked state.core)
    (continued : ChildContinued prior link state) : ChildHeld state.core link := by
  obtain ⟨key, found⟩ := continued.linked
  obtain ⟨sameDefinition, sameInstance⟩ := continued.same
  obtain ⟨first, second, priorParameters, parameters, equal⟩ := continued.parameters
  have child := linked.children key prior found
  obtain ⟨name, held, named, stored, under⟩ := child.selected
  obtain rfl : first = held := Option.some.inj (priorParameters.symm.trans stored)
  have sameKey : JobInstanceKey.new name second = JobInstanceKey.new name first := by
    unfold JobInstanceKey.new
    rw [equal]
  have selected : ∃ name parameters, link.childDefinition.jobName = some name ∧
      state.core.jobParameters[link.childJobExecutionId]? = some parameters ∧
      state.core.instancesByKey[JobInstanceKey.new name parameters]? =
        some link.childJobInstanceId := by
    refine ⟨name, second, by rw [sameDefinition]; exact named, parameters, ?_⟩
    rw [sameKey, sameInstance]
    exact under
  rcases continued.child with ⟨same, terminal⟩ | ⟨unobserved, defined, _, listed, lists, member⟩
  · refine ⟨?_, ?_, selected⟩
    · rw [same, sameInstance, terminal]
      exact child.row
    · rw [same, sameDefinition]
      exact child.definition
  · obtain ⟨row, stored, owner⟩ := linked.owned lists member
    refine ⟨⟨row, stored, owner, ?_⟩, defined, selected⟩
    rw [unobserved]
    simp

theorem Linked.observed (linked : Linked state.core) {parent : JobExecutionId} {nodeId : NodeId}
    {link : NestedJobLink} {child : JobExecution} {observedAt : SystemTime}
    (found : state.nestedJobLinks[(parent, nodeId)]? = some link)
    (stored : state.jobExecutions[link.childJobExecutionId]? = some child)
    (ended : child.status = .completed ∨ child.status = .failed ∨ child.status = .stopped) :
    Linked { state.core with
      nestedJobLinks := state.nestedJobLinks.insert (parent, nodeId)
        { link with terminal := some ⟨child.status, child.metadata.exitStatus, observedAt⟩ } } := by
  have held := linked.children (parent, nodeId) link found
  obtain ⟨row, stored', owner, _⟩ := held.row
  obtain rfl : row = child := Option.some.inj (stored'.symm.trans stored)
  have seen : ChildHeld state.core
      { link with terminal := some ⟨row.status, row.metadata.exitStatus, observedAt⟩ } := by
    refine ⟨⟨row, stored, owner, fun terminal recorded => ?_⟩, held.definition, held.selected⟩
    cases recorded
    refine ⟨?_, rfl, rfl⟩
    rcases ended with completed | failed | stopped
    · rw [completed]
      rfl
    · rw [failed]
      rfl
    · rw [stopped]
      rfl
  exact linked.stored seen _

theorem Linked.purged {candidates : List PurgeCandidate} (linked : Linked state.core)
    (whole : WholePurged candidates state state')
    (spared : ∀ (key : JobExecutionId × NodeId) (link : NestedJobLink),
      state.nestedJobLinks[key]? = some link → ¬ Taken candidates link.childJobInstanceId) :
    Linked state'.core := by
  refine ⟨whole.indexed linked.indexed, ?_, ?_⟩
  · intro id listed lists execution member row stored
    by_cases taken : Taken candidates id
    · cases (whole.gone id taken).1.symm.trans lists
    · exact linked.superseded id listed ((whole.kept id taken).1.symm.trans lists) execution member
        row ((whole.rows execution row).mp stored).1
  · intro key link found
    have before : state.nestedJobLinks[key]? = some link := whole.links ▸ found
    have held := linked.children key link before
    have untaken := spared key link before
    obtain ⟨row, stored, owner, observed⟩ := held.row
    obtain ⟨_, definition, parameters⟩ := whole.others _ row stored (owner.symm ▸ untaken)
    obtain ⟨name, params, named, held', under⟩ := held.selected
    refine ⟨⟨row, (whole.rows _ row).mpr ⟨stored, owner.symm ▸ untaken⟩, owner, observed⟩,
      definition.trans held.definition, name, params, named, parameters.trans held',
      (whole.keys _ _).mpr ⟨under, untaken⟩⟩

theorem Linked.change (change : Change reader operation state state')
    (spares : operation.guarded = true → operation.SparesChildren state)
    (linked : Linked state.core) : Linked state'.core := by
  cases change with
  | quiet same => exact same ▸ linked
  | entered added free unused core => exact core ▸ linked.entered free unused
  | launched made upgrades => exact linked.launched made
  | moved rows => exact linked.moved rows spares
  | stepEntered made =>
    obtain ⟨_, _, _, _, _, core⟩ := made.tables
    exact core ▸ linked.of_tables rfl rfl rfl rfl rfl rfl rfl
  | decided decision unused core => exact core ▸ linked.of_tables rfl rfl rfl rfl rfl rfl rfl
  | repeated same accepted =>
    exact repeatRecorded_core accepted ▸ linked.of_tables rfl rfl rfl rfl rfl rfl rfl
  | parametersStored unset core => exact core ▸ linked.parametersStored unset
  | linkCreated free selected unobserved made =>
    subst made
    exact linked.stored (selected.held linked unobserved) _
  | linkContinued free continued made =>
    subst made
    exact linked.stored (continued.held linked) _
  | observed found stored ended core => exact core ▸ linked.observed found stored ended
  | purged same checked =>
    subst same
    have spared := spares rfl
    exact linked.purged (purged_whole linked.indexed (spared.whole _ rfl) fun candidate member =>
      checkCandidate_ok (checked candidate member)) (spared.children _ rfl)

end Steps

section Rest

/-- A completed execution and the attempts listed with it. -/
structure CompletedIn (state : MemoryState) (id : JobInstanceId) (listed : List JobExecutionId)
    (execution : JobExecutionId) : Prop where
  lists : state.jobExecutionsByInstance[id]? = some listed
  member : execution ∈ listed
  completed : ∃ row, state.jobExecutions[execution]? = some row ∧ row.status = .completed

theorem CompletedIn.of_tables {id : JobInstanceId} {listed : List JobExecutionId}
    {execution : JobExecutionId} (held : CompletedIn state id listed execution)
    (lists : state'.jobExecutionsByInstance = state.jobExecutionsByInstance)
    (rows : state'.jobExecutions = state.jobExecutions) : CompletedIn state' id listed execution :=
  ⟨lists ▸ held.lists, held.member, rows ▸ held.completed⟩

theorem CompletedIn.of_core {tables : CoreTables} {id : JobInstanceId}
    {listed : List JobExecutionId} {execution : JobExecutionId}
    (held : CompletedIn state id listed execution) (core : state'.core = tables)
    (lists : tables.jobExecutionsByInstance = state.jobExecutionsByInstance)
    (rows : tables.jobExecutions = state.jobExecutions) : CompletedIn state' id listed execution := by
  subst core
  exact held.of_tables lists rows

/-- The instance of a completed attempt is not launched. -/
theorem CompletedIn.launched {supply : Supply} {instanceId : JobInstanceId}
    {definition : DefinitionIdentity} {upgraded : Bool} {launch : JobExecution}
    {id : JobInstanceId} {listed : List JobExecutionId} {execution : JobExecutionId}
    (held : CompletedIn state id listed execution) (linked : Linked state.core)
    (launched : Launched supply instanceId definition upgraded state launch state') :
    CompletedIn state' id listed execution := by
  obtain ⟨before, _, _, _, found, restarted, _, _, core⟩ := launched.tables
  have lists : state'.jobExecutionsByInstance = _ :=
    congrArg CoreTables.jobExecutionsByInstance core
  have rows : state'.jobExecutions = _ := congrArg CoreTables.jobExecutions core
  obtain ⟨row, stored, completed⟩ := held.completed
  have different : instanceId ≠ id := by
    rintro rfl
    obtain rfl : before = listed := Option.some.inj (found.symm.trans held.lists)
    rcases mem_dropLast_or_last held.member with earlier | last
    · have followed := linked.superseded _ before found execution earlier row stored
      rw [completed] at followed
      cases followed
    · rcases (restarted execution row last stored).1 with stopped | failed
      · rw [completed] at stopped
        cases stopped
      · rw [completed] at failed
        cases failed
  have other : launch.id ≠ execution := fun same => launched.unused (same ▸ mem_of_lookup stored)
  refine ⟨?_, held.member, row, ?_, completed⟩
  · rw [lists, lookup_insert, if_neg different]
    exact held.lists
  · rw [rows, lookup_insert, if_neg other]
    exact stored

/-- No change but a purge reaches a completed attempt or adds one behind it. -/
theorem CompletedIn.change {id : JobInstanceId} {listed : List JobExecutionId}
    {execution : JobExecutionId} (held : CompletedIn state id listed execution)
    (linked : Linked state.core) (change : Change reader operation state state')
    (other : operation.purges = false) : CompletedIn state' id listed execution := by
  cases change with
  | quiet same => exact held.of_core same rfl rfl
  | entered added free unused core =>
    have lists : state'.jobExecutionsByInstance = _ :=
      congrArg CoreTables.jobExecutionsByInstance core
    have different : added.id ≠ id := by
      rintro rfl
      exact unused ((linked.indexed.lists _).mp (mem_of_lookup held.lists))
    refine ⟨?_, held.member, ?_⟩
    · rw [lists, lookup_insert, if_neg different]
      exact held.lists
    · have rows : state'.jobExecutions = _ := congrArg CoreTables.jobExecutions core
      rw [rows]
      exact held.completed
  | launched made upgrades => exact held.launched linked made
  | moved rows =>
    have lists : state'.jobExecutionsByInstance = _ :=
      congrArg CoreTables.jobExecutionsByInstance rows.core
    obtain ⟨row, stored, completed⟩ := held.completed
    obtain ⟨after, stored', moves⟩ := rel_some (rows.jobs execution) stored
    exact ⟨lists ▸ held.lists, held.member, after, stored', moves.completed completed⟩
  | stepEntered made =>
    obtain ⟨_, _, _, _, _, core⟩ := made.tables
    exact held.of_core core rfl rfl
  | decided decision unused core => exact held.of_core core rfl rfl
  | repeated same accepted => exact held.of_core (repeatRecorded_core accepted) rfl rfl
  | parametersStored unset core => exact held.of_core core rfl rfl
  | linkCreated free selected unobserved made =>
    subst made
    exact held.of_tables rfl rfl
  | linkContinued free continued made =>
    subst made
    exact held.of_tables rfl rfl
  | observed found stored ended core => exact held.of_core core rfl rfl
  | purged same checked =>
    subst same
    cases other

/-- What an operation leaves of an instance that completed: it stays as it is, or is
purged as a whole. -/
theorem CompletedIn.performed {supply : Supply} {createdPlans : ExtTreeSet StepExecutionId}
    {answer : Unit} {id : JobInstanceId} {listed : List JobExecutionId}
    {execution : JobExecutionId} (held : CompletedIn state id listed execution)
    (keyed : Keyed state) (linked : Linked state.core)
    (spares : operation.guarded = true → operation.SparesChildren state)
    (done : operation.perform reader supply createdPlans state = .ok (answer, state')) :
    CompletedIn state' id listed execution ∨ state'.jobExecutionsByInstance[id]? = none := by
  cases purges : operation.purges with
  | true =>
    cases operation with
    | applyPurge plan =>
      obtain ⟨_, done⟩ := discard_yields.mp done
      obtain ⟨rfl, checked⟩ := applyPurge_effect done
      have whole := purged_whole linked.indexed ((spares rfl).whole _ rfl) fun candidate member =>
        checkCandidate_ok (checked candidate member)
      by_cases taken : Taken plan.candidates id
      · exact .inr (whole.gone id taken).1
      · obtain ⟨row, stored, completed⟩ := held.completed
        have owner : row.jobInstanceId = id := by
          obtain ⟨row', stored', owner⟩ := linked.owned held.lists held.member
          obtain rfl : row' = row := Option.some.inj (stored'.symm.trans stored)
          exact owner
        refine .inl ⟨(whole.kept id taken).1.trans held.lists, held.member, row, ?_, completed⟩
        exact (whole.rows execution row).mpr ⟨stored, owner.symm ▸ taken⟩
    | _ => cases purges
  | false =>
    left
    cases guarded : operation.guarded with
    | true => exact held.change linked (Operation.perform_single guarded done) purges
    | false =>
      have changes := Operation.perform_changes keyed done
      have both : Linked state'.core ∧ CompletedIn state' id listed execution := by
        clear done
        induction changes with
        | refl => exact ⟨linked, held⟩
        | tail _ change ih =>
          exact ⟨ih.1.change change (by simp [guarded]), ih.2.change ih.1 change purges⟩
      exact both.2

end Rest

section Choice

variable {supply : Supply} {parent priorParent : JobExecutionId} {nodeId : NodeId}
  {linkedAt : SystemTime} {prior link : NestedJobLink} {parentRow priorChild latest : JobExecution}
  {parameters : JobParameters}

/-- The request of a create that repeats what a prior link was made for. -/
def repeatedRequest (parentInstance : JobInstanceId) (parent : JobExecutionId) (nodeId : NodeId)
    (prior : NestedJobLink) (parameters : JobParameters) (linkedAt : SystemTime) :
    NestedJobLinkRequest :=
  ⟨parentInstance, parent, nodeId, prior.childDefinition, parameters, linkedAt⟩

/-- The child is a fresh attempt of its instance, or the completed one. -/
def ChildChosen (state after : MemoryState) (prior : NestedJobLink) (child : JobExecutionId) :
    Prop :=
  (child ∉ state.jobExecutions ∧ ∃ row, after.jobExecutions[child]? = some row ∧
    row.jobInstanceId = prior.childJobInstanceId ∧ row.status = .starting) ∨
  ∃ row, state.jobExecutions[child]? = some row ∧
    row.jobInstanceId = prior.childJobInstanceId ∧ row.status = .completed

/-- What is stored of a prior link and its parent. -/
structure PriorLink (state : MemoryState) (parent priorParent : JobExecutionId) (nodeId : NodeId)
    (prior : NestedJobLink) (parentRow : JobExecution) (parameters : JobParameters) : Prop where
  parent : state.jobExecutions[parent]? = some parentRow
  link : state.nestedJobLinks[(priorParent, nodeId)]? = some prior
  owner : prior.parentJobInstanceId = parentRow.jobInstanceId
  parameters : state.jobParameters[prior.childJobExecutionId]? = some parameters

/-- Continuing goes on with the child of the prior link. -/
private theorem continueNestedJobLink_iff
    (held : PriorLink state parent priorParent nodeId prior parentRow parameters)
    (free : state.nestedJobLinks[(parent, nodeId)]? = none)
    (stored : state.jobExecutions[prior.childJobExecutionId]? = some priorChild) :
    continueNestedJobLink supply parent nodeId priorParent linkedAt state = .ok (link, state') ↔
      ∃ child first second, continueChildExecution supply prior priorChild state =
          .ok (child, first) ∧
        storeNestedJobParameters child.id parameters first = .ok ((), second) ∧
        link = ⟨parentRow.jobInstanceId, parent, nodeId, prior.childDefinition,
          prior.childJobInstanceId, child.id, linkedAt,
          if child.id = prior.childJobExecutionId then prior.terminal else none⟩ ∧
        state' = insertNestedJobLink link second := by
  have owner : instanceForExecution state parent = .ok parentRow.jobInstanceId := by
    unfold instanceForExecution
    rw [held.parent]
  simp only [continueNestedJobLink, bind_yields, get_yields, lift_yields, owner, free, held.link,
    held.parameters, stored, require_ok, ensure_ok, held.owner, modify_yields, pure_yields,
    existsAndEq, and_true, true_and, Except.ok.injEq, Option.some.injEq, decide_true]
  constructor
  · rintro ⟨_, child, first, continued, _, second, kept, _, rfl, rfl⟩
    exact ⟨child, first, second, continued, kept, rfl, rfl⟩
  · rintro ⟨child, first, second, continued, kept, rfl, rfl⟩
    exact ⟨(), child, first, continued, (), second, kept, (), rfl, rfl⟩

/-- Creating goes on with the latest attempt of the instance its key selects. -/
private theorem createNestedJobLink_iff (keyed : Keyed state)
    (held : PriorLink state parent priorParent nodeId prior parentRow parameters)
    (free : state.nestedJobLinks[(parent, nodeId)]? = none) {name : JobName} {owner : JobInstance}
    (named : prior.childDefinition.jobName = some name)
    (under : state.instancesByKey[JobInstanceKey.new name parameters]? =
      some prior.childJobInstanceId)
    (found : state.instancesById[prior.childJobInstanceId]? = some owner)
    (current : latestJobExecution state prior.childJobInstanceId = .ok (some latest)) :
    createNestedJobLink supply (repeatedRequest parentRow.jobInstanceId parent nodeId prior
        parameters linkedAt) state = .ok (link, state') ↔
      ∃ child first second, reuseChildExecution supply (repeatedRequest parentRow.jobInstanceId
          parent nodeId prior parameters linkedAt) prior.childJobInstanceId latest state =
          .ok (child, first) ∧
        storeNestedJobParameters child.id parameters first = .ok ((), second) ∧
        link = ⟨parentRow.jobInstanceId, parent, nodeId, prior.childDefinition,
          prior.childJobInstanceId, child.id, linkedAt, none⟩ ∧
        state' = insertNestedJobLink link second := by
  have parentOwner : instanceForExecution state parent = .ok parentRow.jobInstanceId := by
    unfold instanceForExecution
    rw [held.parent]
  have ownerId : owner.id = prior.childJobInstanceId := keyed.instances _ _ found
  have selects : selectOrCreateJobInstance supply (JobInstanceKey.new name parameters) state =
      .ok (owner, state) := by
    simp only [selectOrCreateJobInstance, bind_yields, get_yields, existsAndEq, and_true,
      under, lift_yields, require_ok, found]
  have matched : matchingNestedJobLink state parent nodeId prior.childDefinition parameters =
      .ok none := by
    unfold matchingNestedJobLink
    rw [free]
  simp only [createNestedJobLink, repeatedRequest, bind_yields, get_yields, lift_yields,
    parentOwner, matched, named, selects, ownerId, current, require_ok, ensure_ok,
    modify_yields, pure_yields, existsAndEq, and_true, true_and, Except.ok.injEq, Prod.mk.injEq,
    Option.some.injEq, decide_true]
  constructor
  · rintro ⟨_, child, first, reused, _, second, kept, _, rfl, rfl⟩
    exact ⟨child, first, second, reused, kept, rfl, rfl⟩
  · rintro ⟨child, first, second, reused, kept, rfl, rfl⟩
    exact ⟨(), child, first, reused, (), second, kept, (), rfl, rfl⟩

/-- The child of a link decides like the latest attempt of its instance: it is that
attempt, or neither can be restarted or both can under the one definition. -/
def ChildCurrent (state : MemoryState) (prior : NestedJobLink) : Prop :=
  ∀ (listed : List JobExecutionId) (last : JobExecutionId) (latest child : JobExecution),
    state.jobExecutionsByInstance[prior.childJobInstanceId]? = some listed →
    listed.getLast? = some last → state.jobExecutions[last]? = some latest →
    state.jobExecutions[prior.childJobExecutionId]? = some child →
      prior.childJobExecutionId = last ∨ latest.status = .abandoned ∨
      ((latest.status = .failed ∨ latest.status = .stopped) ∧
        (child.status = .failed ∨ child.status = .stopped) ∧
        ∀ definition, state.executionDefinitions[last]? = some definition →
          definition = prior.childDefinition ∨
            definition.manifestDigest ≠ prior.childDefinition.manifestDigest)

/-- An execution is launched only behind a stopped or failed one of the same digest. -/
private theorem createJobExecution_refused {instanceId : JobInstanceId}
    {definition : DefinitionIdentity}
    {listed : List JobExecutionId} {last : JobExecutionId} {answer : JobExecution}
    (lists : state.jobExecutionsByInstance[instanceId]? = some listed)
    (isLast : listed.getLast? = some last) (stored : state.jobExecutions[last]? = some latest)
    (done : createJobExecution supply instanceId definition none state = .ok (answer, state')) :
    (latest.status = .stopped ∨ latest.status = .failed) ∧
      ∃ previous, state.executionDefinitions[latest.id]? = some previous ∧
        previous.manifestDigest = definition.manifestDigest := by
  obtain ⟨listed', _, _, _, lists', restarted, _⟩ := (createJobExecution_effect done).tables
  obtain rfl : listed = listed' := Option.some.inj (lists.symm.trans lists')
  obtain ⟨status, same⟩ := restarted last latest isLast stored
  exact ⟨status, same rfl⟩

section Same

variable (keyed : Keyed state) (linked : Linked state.core)
  (held : PriorLink state parent priorParent nodeId prior parentRow parameters)

include keyed linked held

/-- A link names a stored child, and its instance lists a latest attempt. -/
private theorem priorChild_latest :
    ∃ (child latest : JobExecution) (listed : List JobExecutionId),
      state.jobExecutions[prior.childJobExecutionId]? = some child ∧
      state.jobExecutionsByInstance[prior.childJobInstanceId]? = some listed ∧
      prior.childJobExecutionId ∈ listed ∧ listed.getLast? = some latest.id ∧
      state.jobExecutions[latest.id]? = some latest ∧
      latestJobExecution state prior.childJobInstanceId = .ok (some latest) := by
  obtain ⟨child, stored, owner, _⟩ := (linked.children _ prior held.link).row
  obtain ⟨listed, lists, member⟩ := linked.indexed.listed.complete _ child stored
  rw [owner] at lists
  have nonempty : listed ≠ [] := List.ne_nil_of_mem member
  obtain ⟨latest, found, _⟩ := linked.owned lists (List.getLast_mem nonempty)
  have latestId := keyed.executions _ _ found
  refine ⟨child, latest, listed, stored, lists, member, ?_, by rw [latestId]; exact found, ?_⟩
  · rw [latestId]
    exact List.getLast?_eq_some_getLast nonempty
  · have lists' : state.jobExecutionsByInstance[prior.childJobInstanceId]? = some listed := lists
    unfold latestJobExecution
    rw [lists']
    simp only [List.getLast?_eq_some_getLast nonempty, Option.bind_some]
    exact congrArg Except.ok found

private theorem chooses_same {listed : List JobExecutionId}
    (stored : state.jobExecutions[prior.childJobExecutionId]? = some priorChild)
    (lists : state.jobExecutionsByInstance[prior.childJobInstanceId]? = some listed)
    (member : prior.childJobExecutionId ∈ listed) (isLast : listed.getLast? = some latest.id)
    (storedLatest : state.jobExecutions[latest.id]? = some latest)
    (current : ChildCurrent state prior) {child : JobExecution} {first : MemoryState} :
    continueChildExecution supply prior priorChild state = .ok (child, first) ↔
      reuseChildExecution supply (repeatedRequest parentRow.jobInstanceId parent nodeId prior
        parameters linkedAt) prior.childJobInstanceId latest state = .ok (child, first) := by
  have defined : state.executionDefinitions[prior.childJobExecutionId]? =
      some prior.childDefinition := (linked.children _ prior held.link).definition
  rcases current listed latest.id latest priorChild lists isLast storedLatest stored with
    same | abandoned | ⟨restarts, restarts', defines⟩
  · -- the link names the latest attempt: both look at one row
    obtain rfl : priorChild = latest := Option.some.inj (stored.symm.trans (same ▸ storedLatest))
    rw [same] at defined
    have params : state.jobParameters[priorChild.id]? = some parameters := same ▸ held.parameters
    unfold continueChildExecution
    cases status : priorChild.status with
    | completed =>
      simp only [reuseChildExecution, repeatedRequest, bind_yields, get_yields, lift_yields,
        require_ok, ensure_ok, pure_yields, defined, status, params, existsAndEq, and_true,
        true_and, Option.some.injEq, decide_true, exists_const]
    | failed => simp [reuseChildExecution, repeatedRequest, defined, status]
    | stopped => simp [reuseChildExecution, repeatedRequest, defined, status]
    | starting | started | stopping | unknown | abandoned =>
      simp [reuseChildExecution, repeatedRequest, status]
  · -- an abandoned instance is not run again
    have refused : ¬ reuseChildExecution supply (repeatedRequest parentRow.jobInstanceId parent
        nodeId prior parameters linkedAt) prior.childJobInstanceId latest state =
          .ok (child, first) := by
      simp [reuseChildExecution, abandoned]
    refine iff_of_false (fun continued => ?_) refused
    rcases continueChildExecution_effect continued with ⟨_, _, completed⟩ | launched
    · rcases mem_dropLast_or_last member with earlier | last
      · have followed := linked.superseded _ listed lists _ earlier priorChild stored
        rw [completed] at followed
        cases followed
      · obtain same : latest.id = prior.childJobExecutionId :=
          Option.some.inj (isLast.symm.trans last)
        obtain rfl : priorChild = latest :=
          Option.some.inj (stored.symm.trans (same ▸ storedLatest))
        rw [abandoned] at completed
        cases completed
    · obtain ⟨listed', _, _, _, lists', restarted, _⟩ := launched.tables
      obtain rfl : listed = listed' := Option.some.inj (lists.symm.trans lists')
      have status := (restarted latest.id latest isLast storedLatest).1
      rw [abandoned] at status
      simp at status
  · -- both launch a new attempt, unless the latest ran another definition
    have continues : continueChildExecution supply prior priorChild =
        createJobExecution supply prior.childJobInstanceId prior.childDefinition none := by
      unfold continueChildExecution
      rcases restarts' with failed | stopped
      · rw [failed]
      · rw [stopped]
    rw [continues]
    cases definition : state.executionDefinitions[latest.id]? with
    | none =>
      refine iff_of_false (fun launched => ?_) ?_
      · obtain ⟨_, previous, found, _⟩ := createJobExecution_refused lists isLast storedLatest launched
        rw [definition] at found
        cases found
      · simp [reuseChildExecution, definition]
    | some ran =>
      rcases defines ran definition with rfl | differs
      · rcases restarts with failed | stopped
        · simp [reuseChildExecution, repeatedRequest, definition, failed]
        · simp [reuseChildExecution, repeatedRequest, definition, stopped]
      · have other : ran ≠ prior.childDefinition := fun same => differs (same ▸ rfl)
        refine iff_of_false (fun launched => ?_) ?_
        · obtain ⟨_, previous, found, same⟩ :=
            createJobExecution_refused lists isLast storedLatest launched
          rw [definition] at found
          cases found
          exact differs same
        · simp [reuseChildExecution, repeatedRequest, definition, other]

end Same

end Choice

section Consistency

/-- A link the parent has already is for the same definition and parameters. -/
def OwnLinkAlike (state : MemoryState) (parent : JobExecutionId) (nodeId : NodeId)
    (prior : NestedJobLink) (parameters : JobParameters) : Prop :=
  ∀ existing, state.nestedJobLinks[(parent, nodeId)]? = some existing →
    existing.childDefinition = prior.childDefinition ∧
      ∃ stored, state.jobParameters[existing.childJobExecutionId]? = some stored ∧
        stored.toList = parameters.toList

/-- Continuing a link and creating it anew succeed alike and select one child; without a
link of its own the parent gets a fresh child or the completed one. -/
def ChoosesAlike (state : MemoryState) (supply : Supply) (parent priorParent : JobExecutionId)
    (nodeId : NodeId) (linkedAt : SystemTime) (prior : NestedJobLink) (parentRow : JobExecution)
    (parameters : JobParameters) : Prop :=
  ((∃ link after, continueNestedJobLink supply parent nodeId priorParent linkedAt state =
      .ok (link, after)) ↔
    ∃ link after, createNestedJobLink supply (repeatedRequest parentRow.jobInstanceId parent nodeId
      prior parameters linkedAt) state = .ok (link, after)) ∧
  ∀ link after link' after',
    continueNestedJobLink supply parent nodeId priorParent linkedAt state = .ok (link, after) →
    createNestedJobLink supply (repeatedRequest parentRow.jobInstanceId parent nodeId prior
      parameters linkedAt) state = .ok (link', after') →
    link.childJobExecutionId = link'.childJobExecutionId ∧
      (state.nestedJobLinks[(parent, nodeId)]? = none →
        ChildChosen state after prior link.childJobExecutionId)

/-- What links have recorded of their children is so. -/
def TerminalsTrue (state : MemoryState) : Prop :=
  ∀ (key : JobExecutionId × NodeId) (link : NestedJobLink) (terminal : NestedJobTerminalObservation),
    state.nestedJobLinks[key]? = some link → link.terminal = some terminal →
      ∃ child, state.jobExecutions[link.childJobExecutionId]? = some child ∧
        terminal.status = child.status ∧ terminal.exitStatus = child.metadata.exitStatus

/-- No operation launches an instance that completed; it rests until it is purged as a
whole. -/
def CompletedRests (reader : DefinitionReader) (entry : Entry) : Prop :=
  ∀ after, entry.operation.perform reader entry.supply entry.createdPlans entry.before =
      .ok ((), after) →
    ∀ id listed execution, CompletedIn entry.before id listed execution →
      CompletedIn after id listed execution ∨ after.jobExecutionsByInstance[id]? = none

section Alike

variable {supply : Supply} {parent priorParent : JobExecutionId} {nodeId : NodeId}
  {linkedAt : SystemTime} {prior : NestedJobLink} {parentRow : JobExecution}
  {parameters : JobParameters}
  (held : PriorLink state parent priorParent nodeId prior parentRow parameters)

include held

/-- A parent that has its link already gets that link again. -/
private theorem alike_of_own {existing : NestedJobLink}
    (found : state.nestedJobLinks[(parent, nodeId)]? = some existing)
    (own : OwnLinkAlike state parent nodeId prior parameters) :
    ChoosesAlike state supply parent priorParent nodeId linkedAt prior parentRow parameters := by
  obtain ⟨definition, stored, params, same⟩ := own existing found
  have owner : instanceForExecution state parent = .ok parentRow.jobInstanceId := by
    unfold instanceForExecution
    rw [held.parent]
  have matched : matchingNestedJobLink state parent nodeId prior.childDefinition parameters =
      .ok (some existing) := by
    simp only [matchingNestedJobLink, found, params, bind_ok, require_ok, ensure_ok, pure_ok]
    exact ⟨stored, rfl, (), by simp [definition, same], trivial⟩
  have continues : continueNestedJobLink supply parent nodeId priorParent linkedAt state =
      .ok (existing, state) := by
    simp only [continueNestedJobLink, bind_yields, get_yields, lift_yields, owner, found,
      pure_yields, existsAndEq, and_true, Except.ok.injEq]
  have creates : createNestedJobLink supply (repeatedRequest parentRow.jobInstanceId parent nodeId
      prior parameters linkedAt) state = .ok (existing, state) := by
    simp only [createNestedJobLink, repeatedRequest, bind_yields, get_yields, lift_yields, owner,
      ensure_ok, matched, pure_yields, existsAndEq, and_true, Except.ok.injEq, decide_true,
      exists_const]
  refine ⟨⟨fun _ => ⟨_, _, creates⟩, fun _ => ⟨_, _, continues⟩⟩, ?_⟩
  intro link after link' after' continued created
  rw [continues] at continued
  rw [creates] at created
  cases continued
  cases created
  refine ⟨rfl, fun free => ?_⟩
  rw [found] at free
  cases free

private theorem alike_of_current (keyed : Keyed state) (linked : Linked state.core)
    (free : state.nestedJobLinks[(parent, nodeId)]? = none) (current : ChildCurrent state prior) :
    ChoosesAlike state supply parent priorParent nodeId linkedAt prior parentRow parameters := by
  obtain ⟨child, latest, listed, stored, lists, member, isLast, storedLatest, latestFound⟩ :=
    priorChild_latest keyed linked held
  obtain ⟨_, _, owner, _⟩ := (linked.children _ prior held.link).row
  obtain ⟨name, params, named, paramsStored, under⟩ := (linked.children _ prior held.link).selected
  obtain rfl : params = parameters := Option.some.inj (paramsStored.symm.trans held.parameters)
  obtain ⟨instanceRow, instanceFound, _⟩ := linked.indexed.keys _ _ under
  constructor
  · constructor
    · rintro ⟨link, after, continued⟩
      obtain ⟨chosen, first, second, chooses, kept, rfl, rfl⟩ :=
        (continueNestedJobLink_iff held free stored).mp continued
      exact ⟨_, _, (createNestedJobLink_iff keyed held free named under instanceFound
        latestFound).mpr ⟨chosen, first, second, (chooses_same keyed linked held stored lists member
          isLast storedLatest current).mp chooses, kept, rfl, rfl⟩⟩
    · rintro ⟨link, after, created⟩
      obtain ⟨chosen, first, second, chooses, kept, rfl, rfl⟩ :=
        (createNestedJobLink_iff keyed held free named under instanceFound latestFound).mp created
      exact ⟨_, _, (continueNestedJobLink_iff held free stored).mpr ⟨chosen, first, second,
        (chooses_same keyed linked held stored lists member isLast storedLatest current).mpr chooses,
          kept, rfl, rfl⟩⟩
  · intro link after link' after' continued created
    obtain ⟨chosen, first, second, chooses, kept, rfl, rfl⟩ :=
      (continueNestedJobLink_iff held free stored).mp continued
    obtain ⟨chosen', first', second', chooses', _, rfl, _⟩ :=
      (createNestedJobLink_iff keyed held free named under instanceFound latestFound).mp created
    have same := (chooses_same keyed linked held stored lists member isLast storedLatest
      current).mpr chooses'
    rw [chooses] at same
    cases same
    refine ⟨rfl, fun _ => ?_⟩
    rcases continueChildExecution_effect chooses with ⟨_, rfl, completed⟩ | launched
    · have childId := keyed.executions _ _ stored
      refine .inr ⟨chosen, by rw [childId]; exact stored, ?_, completed⟩
      obtain ⟨row, stored', owner, _⟩ := (linked.children _ prior held.link).row
      obtain rfl : row = chosen := Option.some.inj (stored'.symm.trans stored)
      exact owner
    · obtain ⟨listed, _, _, _, _, _, _, _, core⟩ := launched.tables
      have rows : first.jobExecutions = _ := congrArg CoreTables.jobExecutions core
      refine .inl ⟨launched.unused, chosen, ?_, ?_, ?_⟩
      · change second.jobExecutions[chosen.id]? = some chosen
        rw [storeNestedJobParameters_rows kept, rows, lookup_insert, if_pos rfl]
      · rw [launched.made]
        rfl
      · rw [launched.made]
        rfl

end Alike

/-- Over every run that spares the children of links, and at every state it reaches: a
link is continued as it would be created wherever its child is current, what links record
of their children is so, and no completed child is run again. -/
theorem nested_links_choose_alike (reader : DefinitionReader) (events : List Event)
    (entries : List Entry) (state : MemoryState)
    (reached : (Journaled.new.run reader events).Reaches entries state)
    (spares : ∀ entry ∈ entries, entry.operation.SparesChildren entry.before) :
    (∀ supply parent priorParent nodeId linkedAt prior parentRow parameters,
      PriorLink state parent priorParent nodeId prior parentRow parameters →
      ChildCurrent state prior → OwnLinkAlike state parent nodeId prior parameters →
        ChoosesAlike state supply parent priorParent nodeId linkedAt prior parentRow parameters) ∧
      TerminalsTrue state ∧ ∀ entry ∈ entries, CompletedRests reader entry := by
  have follows := reached.follows
  have linkedAlong : ∀ {entries : List Entry} {state : MemoryState}, Follows reader entries state →
      (∀ entry ∈ entries, entry.operation.SparesChildren entry.before) →
      Keyed state ∧ Linked state.core := fun follows spares =>
    follows.invariant (fun state operation => operation.SparesChildren state) linked_empty
      (fun change allowed _ linked => linked.change change allowed) spares
  obtain ⟨keyed, linked⟩ := linkedAlong follows spares
  refine ⟨?_, ?_, ?_⟩
  · intro supply parent priorParent nodeId linkedAt prior parentRow parameters held current own
    cases found : state.nestedJobLinks[(parent, nodeId)]? with
    | some existing => exact alike_of_own held found own
    | none => exact alike_of_current held keyed linked found current
  · intro key link terminal found recorded
    obtain ⟨row, stored, _, observed⟩ := (linked.children key link found).row
    exact ⟨row, stored, (observed terminal recorded).2⟩
  · intro entry member after done id listed execution completed
    obtain ⟨earlier, leads, before⟩ := follows.each entry member
    obtain ⟨keyed, linked⟩ := linkedAlong before fun other among =>
      spares other (leads.subset among)
    exact completed.performed keyed linked (fun _ => spares entry member) done

def outerDefinition : DefinitionIdentity :=
  ⟨some ⟨"outer", Eq.refl true⟩, ⟨"r1", Eq.refl true⟩, 4, 1, []⟩

def childNode : NodeId := ⟨"child", Eq.refl true⟩

/-- The parent links its child, and both end as failed. -/
def linkedAndFailed : List Event :=
  unitEvents 1
    [(supplyOf 1, .selectOrCreateJobInstance ⟨⟨"outer", Eq.refl true⟩, []⟩),
      (supplyOf 1, .createJobExecution 1 outerDefinition none)] ++
  unitEvents 2
    [(supplyOf 2, .createNestedJobLink ⟨1,
        1, childNode, nightlyDefinition, ∅, 0⟩),
      (supplyOf 2, .transitionJobExecution 2 .initial
        (.failed 0 ⟨.userComponent, 0⟩)),
      (supplyOf 2, .transitionJobExecution 1 .initial
        (.failed 0 ⟨.userComponent, 0⟩))]

/-- The child is restarted on its own and completes, then the parent is restarted. -/
def childMovedOn : List Event :=
  linkedAndFailed ++
  unitEvents 3
    [(supplyOf 3, .createJobExecution 2 nightlyDefinition none),
      (supplyOf 3, .transitionJobExecution 3 .initial
        (.new .started 0)),
      (supplyOf 3, .transitionJobExecution 3 1
        (.new .completed 0))] ++
  unitEvents 4
    [(supplyOf 4, .createJobExecution 1 outerDefinition none)]

/-- The state once the child has moved on. -/
def movedOnStore : MemoryState := (World.new.run blindReader childMovedOn).committed

private theorem movedOn_evaluated :
    movedOnStore.jobExecutions[(4 : JobExecutionId)]?.map
        (·.jobInstanceId.get) = some 1 ∧
      movedOnStore.nestedJobLinks[((1 : JobExecutionId), childNode)]?.map
        (fun link => (link.parentJobInstanceId.get, link.childJobExecutionId.get,
          link.childJobInstanceId.get, link.childDefinition)) = some (1, 2, 2, nightlyDefinition) ∧
      movedOnStore.jobParameters[(2 : JobExecutionId)]?.map (·.toList) =
        some [] ∧
      movedOnStore.jobExecutions.toList.all (fun entry =>
        entry.2.jobInstanceId.get ≠ 2 || entry.2.status.isFinished) = true ∧
      (continueNestedJobLink (supplyOf 5) 4 childNode
        1 0 movedOnStore).toOption.isSome = false ∧
      (createNestedJobLink (supplyOf 5) ⟨1,
        4, childNode, nightlyDefinition, ∅, 0⟩
        movedOnStore).toOption.isSome = true := by
  decide +kernel

private theorem movedOn_reached : (Journaled.new.run blindReader childMovedOn).Reaches
    (Journaled.new.run blindReader childMovedOn).committed movedOnStore :=
  Journaled.reaches_committed blindReader childMovedOn

private theorem id_ext {kind : IdentifierKind} {left right : Id kind}
    (same : left.get = right.get) :
    left = right := by
  cases left
  cases right
  cases same
  rfl

/-- Behind a child that moved on, a link cannot be continued that can be created. -/
theorem moved_on_child_chosen_apart :
    ¬ ∀ (reader : DefinitionReader) (events : List Event) (entries : List Entry)
      (state : MemoryState), (Journaled.new.run reader events).Reaches entries state →
      ∀ supply parent priorParent nodeId linkedAt prior parentRow parameters,
        PriorLink state parent priorParent nodeId prior parentRow parameters →
        (∀ (id : JobExecutionId) (row : JobExecution), state.jobExecutions[id]? = some row →
          row.jobInstanceId = prior.childJobInstanceId → row.status.isFinished = true) →
        ChoosesAlike state supply parent priorParent nodeId linkedAt prior parentRow parameters := by
  intro claimed
  have reached := movedOn_reached
  have evaluated := movedOn_evaluated
  generalize movedOnStore = store at reached evaluated
  obtain ⟨parent, link, params, finished, refused, creates⟩ := evaluated
  obtain ⟨parentRow, parentFound, parentOwner⟩ := Option.map_eq_some_iff.mp parent
  obtain ⟨prior, linkFound, fields⟩ := Option.map_eq_some_iff.mp link
  obtain ⟨parameters, paramsFound, empty⟩ := Option.map_eq_some_iff.mp params
  simp only [Prod.mk.injEq] at fields
  obtain ⟨priorOwner, priorChild, childInstance, definition⟩ := fields
  have child : prior.childJobExecutionId = 2 := id_ext priorChild
  have owner : parentRow.jobInstanceId = 1 := id_ext parentOwner
  obtain rfl : parameters = ∅ := by
    rw [← ExtTreeMap.isEmpty_iff, ← ExtTreeMap.isEmpty_toList, empty]
    rfl
  have held : PriorLink store 4 1 childNode prior
      parentRow ∅ :=
    ⟨parentFound, linkFound, id_ext (priorOwner.trans parentOwner.symm), child ▸ paramsFound⟩
  have alike := claimed blindReader childMovedOn _ store reached (supplyOf 5) _ _ _ 0 _ _
    _ held (by
      intro id row found same
      have each := List.all_eq_true.mp finished (id, row)
        (ExtTreeMap.mem_toList_iff_getElem?_eq_some.mpr found)
      simpa [same, childInstance] using each)
  have created : ∃ link after, createNestedJobLink (supplyOf 5)
      (repeatedRequest parentRow.jobInstanceId 4 childNode prior ∅ 0)
      store = .ok (link, after) := by
    unfold repeatedRequest
    rw [owner, definition]
    cases done : createNestedJobLink (supplyOf 5) ⟨1,
        4, childNode, nightlyDefinition, ∅, 0⟩ store with
    | error failure =>
      rw [done] at creates
      cases creates
    | ok result => exact ⟨result.1, result.2, rfl⟩
  obtain ⟨link, after, continued⟩ := alike.1.mpr created
  rw [continued] at refused
  cases refused

/-- The parent is restarted behind the child that failed. -/
def parentRestarted : List Event :=
  linkedAndFailed ++ unitEvents 3
    [(supplyOf 3, .createJobExecution 1 outerDefinition none)]

def restartedStore : MemoryState := (World.new.run blindReader parentRestarted).committed

/-- Nothing that is not a purge touches a link before one has recorded an end. -/
theorem Operation.spares_of_unobserved (other : operation.purges = false)
    (unobserved : state.nestedJobLinks.toList.all (·.2.terminal.isNone) = true) :
    operation.SparesChildren state := by
  have unseen : ∀ id, ¬ Observed state id := by
    rintro id ⟨key, link, found, _, recorded⟩
    have none := List.all_eq_true.mp unobserved (key, link)
      (ExtTreeMap.mem_toList_iff_getElem?_eq_some.mpr found)
    rw [Option.isNone_iff_eq_none] at none
    rw [(none : link.terminal = Option.none)] at recorded
    cases recorded
  refine ⟨Operation.takesWhole_of_purges other, ?_, fun id _ _ _ => unseen id,
    fun id _ _ _ => unseen id⟩
  rintro plan rfl
  cases other

private theorem restarted_evaluated :
    (Journaled.new.run blindReader parentRestarted).committed.all (fun entry =>
        !entry.operation.purges &&
          entry.before.nestedJobLinks.toList.all (·.2.terminal.isNone)) = true ∧
      restartedStore.jobExecutions[(3 : JobExecutionId)]?.map
        (·.jobInstanceId.get) = some 1 ∧
      restartedStore.nestedJobLinks[((1 : JobExecutionId), childNode)]?.map
        (fun link => (link.parentJobInstanceId.get, link.childJobExecutionId.get,
          link.childJobInstanceId.get)) = some (1, 2, 2) ∧
      restartedStore.jobParameters[(2 : JobExecutionId)]?.isSome = true ∧
      restartedStore.jobExecutionsByInstance[(2 : JobInstanceId)]? =
        some [2] ∧
      restartedStore.nestedJobLinks[((3 : JobExecutionId), childNode)]? =
        none := by
  decide +kernel

/-- The restarted parent continues its link as it would create it. -/
theorem restarted_parent_chooses_alike :
    ∃ prior parentRow parameters,
      PriorLink restartedStore 3 1 childNode prior
        parentRow parameters ∧
      ChoosesAlike restartedStore (supplyOf 5) 3
        1 childNode 0 prior parentRow parameters := by
  have reached : (Journaled.new.run blindReader parentRestarted).Reaches
      (Journaled.new.run blindReader parentRestarted).committed restartedStore :=
    Journaled.reaches_committed blindReader parentRestarted
  have evaluated := restarted_evaluated
  generalize restartedStore = store at reached evaluated ⊢
  obtain ⟨spared, parent, link, params, lists, free⟩ := evaluated
  obtain ⟨parentRow, parentFound, parentOwner⟩ := Option.map_eq_some_iff.mp parent
  obtain ⟨prior, linkFound, fields⟩ := Option.map_eq_some_iff.mp link
  obtain ⟨parameters, paramsFound⟩ := Option.isSome_iff_exists.mp params
  simp only [Prod.mk.injEq] at fields
  obtain ⟨priorOwner, priorChild, childInstance⟩ := fields
  have child : prior.childJobExecutionId = 2 := id_ext priorChild
  have instanceId : prior.childJobInstanceId = 2 := id_ext childInstance
  have held : PriorLink store 3 1 childNode prior
      parentRow parameters :=
    ⟨parentFound, linkFound, id_ext (priorOwner.trans parentOwner.symm), child ▸ paramsFound⟩
  refine ⟨prior, parentRow, parameters, held, ?_⟩
  refine (nested_links_choose_alike blindReader parentRestarted _ store reached
    fun entry member => ?_).1 _ _ _ _ _ _ _ _ held ?_ ?_
  · have each := List.all_eq_true.mp spared entry member
    rw [Bool.and_eq_true, Bool.not_eq_true'] at each
    exact Operation.spares_of_unobserved each.1 each.2
  · intro listed last latest _ found isLast _ _
    rw [instanceId, lists] at found
    cases found
    exact .inl (child.trans (Option.some.inj isLast))
  · intro existing found
    rw [free] at found
    cases found

end Consistency

end OxideBatch.Repository
