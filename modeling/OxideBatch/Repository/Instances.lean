import OxideBatch.Repository.Journal

/-! Instances and their executions: which rows are listed where, and what a purge that
takes whole instances leaves of them. -/

namespace OxideBatch.Repository

open OxideBatch.Core OxideBatch.Plan Program
open Std (ExtTreeMap ExtTreeSet)
open Tables

variable {reader : DefinitionReader} {operation : Operation} {state state' : MemoryState}

section Indexed

/-- Instances are found under their keys, and list the executions they own. -/
structure Indexed (tables : CoreTables) : Prop where
  keys : ∀ (key : JobInstanceKey) (id : JobInstanceId), tables.instancesByKey[key]? = some id →
    ∃ row, tables.instancesById[id]? = some row ∧ row.key = key
  found : ∀ (id : JobInstanceId) (row : JobInstance), tables.instancesById[id]? = some row →
    tables.instancesByKey[row.key]? = some id
  lists : ∀ id : JobInstanceId, id ∈ tables.jobExecutionsByInstance ↔ id ∈ tables.instancesById
  listed : Listed JobExecution.jobInstanceId tables.jobExecutions tables.jobExecutionsByInstance

theorem indexed_empty : Indexed MemoryState.empty.core where
  keys _ _ found := by simp [MemoryState.core, MemoryState.empty] at found
  found _ _ found := by simp [MemoryState.core, MemoryState.empty] at found
  lists _ := by simp [MemoryState.core, MemoryState.empty]
  listed := Listed.empty

/-- The tables of instances and executions are all that counts. -/
theorem Indexed.of_tables {tables tables' : CoreTables} (indexed : Indexed tables)
    (keys : tables'.instancesByKey = tables.instancesByKey)
    (rows : tables'.instancesById = tables.instancesById)
    (executions : tables'.jobExecutions = tables.jobExecutions)
    (lists : tables'.jobExecutionsByInstance = tables.jobExecutionsByInstance) :
    Indexed tables' := by
  refine ⟨?_, ?_, ?_, ?_⟩
  · rw [keys, rows]
    exact indexed.keys
  · rw [keys, rows]
    exact indexed.found
  · rw [lists, rows]
    exact indexed.lists
  · rw [executions, lists]
    exact indexed.listed

theorem JobMoves.owner {id : JobExecutionId} {before after : JobExecution}
    (moves : JobMoves operation id before after) : after.jobInstanceId = before.jobInstanceId := by
  rcases moves with rfl | ⟨_, same, _⟩
  · rfl
  · exact same

/-- Rows that keep their owners keep their places. -/
theorem listed_rowsMoved {Owner Id Row : Type} [Ord Owner] [Std.TransOrd Owner]
    [Std.LawfulEqOrd Owner] [DecidableEq Owner] [Ord Id] [Std.TransOrd Id] [Std.LawfulEqOrd Id]
    [DecidableEq Id] {owner : Row → Owner} {rows rows' : ExtTreeMap Id Row}
    {lists : ExtTreeMap Owner (List Id)} (listed : Listed owner rows lists)
    (moved : ∀ id : Id, Option.Rel (fun before after => owner after = owner before)
      rows[id]? rows'[id]?) : Listed owner rows' lists := by
  refine ⟨listed.nodup, ?_, ?_⟩
  · intro key held found id member
    obtain ⟨row, stored, owned⟩ := listed.stored key held found id member
    have moves := moved id
    rw [stored] at moves
    cases after : rows'[id]? with
    | none =>
      rw [after] at moves
      cases moves
    | some row' =>
      rw [after] at moves
      cases moves with
      | some same => exact ⟨row', rfl, same.trans owned⟩
  · intro id row' found
    have moves := moved id
    rw [found] at moves
    cases before : rows[id]? with
    | none =>
      rw [before] at moves
      cases moves
    | some row =>
      rw [before] at moves
      cases moves with
      | some same =>
        rw [same]
        exact listed.complete id row before

theorem rel_imp {α β : Type} {first second : α → β → Prop} {left : Option α}
    {right : Option β} (weaker : ∀ a b, first a b → second a b) (held : Option.Rel first left right) :
    Option.Rel second left right := by
  cases held with
  | none => exact .none
  | some holds => exact .some (weaker _ _ holds)

theorem RowsMoved.indexed (moved : RowsMoved operation state state')
    (indexed : Indexed state.core) : Indexed state'.core := by
  rw [moved.core]
  exact ⟨indexed.keys, indexed.found, indexed.lists, listed_rowsMoved indexed.listed fun id =>
    rel_imp (fun _ _ moves => moves.owner) (moved.jobs id)⟩

theorem Launched.indexed {supply : Supply} {instanceId : JobInstanceId}
    {definition : DefinitionIdentity} {upgraded : Bool} {execution : JobExecution}
    (launched : Launched supply instanceId definition upgraded state execution state')
    (indexed : Indexed state.core) : Indexed state'.core := by
  obtain ⟨listed, _, _, _, found, _, _, _, core⟩ := launched.tables
  have owner : execution.jobInstanceId = instanceId := by
    rw [launched.made]
    rfl
  have pushed : state.jobExecutionsByInstance.insert instanceId (listed ++ [execution.id]) =
      pushUnder state.jobExecutionsByInstance execution.jobInstanceId execution.id := by
    unfold pushUnder
    rw [owner, found]
    rfl
  rw [core]
  refine ⟨indexed.keys, indexed.found, fun id => ?_, ?_⟩
  · change id ∈ state.jobExecutionsByInstance.insert instanceId _ ↔ id ∈ state.instancesById
    have lists : id ∈ state.jobExecutionsByInstance ↔ id ∈ state.instancesById := indexed.lists id
    rw [mem_insert_iff, lists]
    constructor
    · rintro (rfl | member)
      · exact launched.owner
      · exact member
    · exact .inr
  · change Listed _ (state.jobExecutions.insert execution.id execution) _
    rw [pushed]
    exact indexed.listed.push launched.unused

/-- A new instance is found under its key and lists nothing. -/
theorem Indexed.entered {tables : CoreTables} (indexed : Indexed tables) {added : JobInstance}
    (free : tables.instancesByKey[added.key]? = none) (unused : added.id ∉ tables.instancesById) :
    Indexed { tables with
      instancesByKey := tables.instancesByKey.insert added.key added.id
      instancesById := tables.instancesById.insert added.id added
      jobExecutionsByInstance := tables.jobExecutionsByInstance.insert added.id [] } := by
  have unlisted : added.id ∉ tables.jobExecutionsByInstance := fun member =>
    unused ((indexed.lists added.id).mp member)
  refine ⟨?_, ?_, ?_, ?_⟩
  · intro key id found
    rcases lookup_insert_cases found with ⟨rfl, rfl⟩ | ⟨_, before⟩
    · exact ⟨added, by rw [lookup_insert, if_pos rfl], rfl⟩
    · obtain ⟨row, stored, same⟩ := indexed.keys key id before
      have different : added.id ≠ id := fun same => unused (same ▸ mem_of_lookup stored)
      exact ⟨row, by rw [lookup_insert, if_neg different]; exact stored, same⟩
  · intro id row found
    rcases lookup_insert_cases found with ⟨rfl, rfl⟩ | ⟨_, before⟩
    · rw [lookup_insert, if_pos rfl]
    · have held := indexed.found id row before
      have different : added.key ≠ row.key := by
        intro same
        rw [same, held] at free
        cases free
      rw [lookup_insert, if_neg different]
      exact held
  · intro id
    rw [mem_insert_iff, mem_insert_iff, indexed.lists id]
  · have none : Listed JobExecution.jobInstanceId
        (insertAll tables.jobExecutions ([] : List (JobExecutionId × JobExecution))) _ :=
      indexed.listed.insertList unlisted (by simp) (by simp) (by simp)
    exact none

end Indexed

section Purge

/-- What the candidates of a purge take from the tables of executions. -/
structure RowsPurged (candidates : List PurgeCandidate) (state state' : MemoryState) : Prop where
  rows : state'.jobExecutions = eraseAll state.jobExecutions (candidates.map (·.jobExecutionId))
  attempts : state'.executionAttempts =
    eraseAll state.executionAttempts (candidates.map (·.jobExecutionId))
  definitions : state'.executionDefinitions =
    eraseAll state.executionDefinitions (candidates.map (·.jobExecutionId))
  parameters : state'.jobParameters =
    eraseAll state.jobParameters (candidates.map (·.jobExecutionId))
  lists : ∀ id : JobInstanceId, state'.jobExecutionsByInstance[id]? =
    state.jobExecutionsByInstance[id]?.map fun listed => listed.filter fun execution =>
      decide (∀ candidate ∈ candidates, candidate.jobInstanceId = id →
        candidate.jobExecutionId ≠ execution)
  instances : state'.instancesById = state.instancesById
  keys : state'.instancesByKey = state.instancesByKey
  counters : state'.nextExecutionAttemptByInstance = state.nextExecutionAttemptByInstance
  links : state'.nestedJobLinks = state.nestedJobLinks

private theorem removeStepExecutions_jobs (state : MemoryState) (id : JobExecutionId) :
    (removeStepExecutions state id).jobExecutions = state.jobExecutions ∧
      (removeStepExecutions state id).executionAttempts = state.executionAttempts ∧
      (removeStepExecutions state id).executionDefinitions = state.executionDefinitions ∧
      (removeStepExecutions state id).jobParameters = state.jobParameters ∧
      (removeStepExecutions state id).jobExecutionsByInstance = state.jobExecutionsByInstance ∧
      (removeStepExecutions state id).instancesById = state.instancesById ∧
      (removeStepExecutions state id).instancesByKey = state.instancesByKey ∧
      (removeStepExecutions state id).nextExecutionAttemptByInstance =
        state.nextExecutionAttemptByInstance ∧
      (removeStepExecutions state id).nestedJobLinks = state.nestedJobLinks := by
  unfold removeStepExecutions
  generalize state.stepExecutionsByJob[id]?.getD [] = steps
  generalize start : ({ state with stepExecutionsByJob := state.stepExecutionsByJob.erase id } :
    MemoryState) = before
  have kept : before.jobExecutions = state.jobExecutions ∧
      before.executionAttempts = state.executionAttempts ∧
      before.executionDefinitions = state.executionDefinitions ∧
      before.jobParameters = state.jobParameters ∧
      before.jobExecutionsByInstance = state.jobExecutionsByInstance ∧
      before.instancesById = state.instancesById ∧ before.instancesByKey = state.instancesByKey ∧
      before.nextExecutionAttemptByInstance = state.nextExecutionAttemptByInstance ∧
      before.nestedJobLinks = state.nestedJobLinks := by
    subst start
    exact ⟨rfl, rfl, rfl, rfl, rfl, rfl, rfl, rfl, rfl⟩
  clear start
  induction steps generalizing before with
  | nil => exact kept
  | cons step steps ih => exact ih (removeStepExecution before step) kept

private theorem rowsPurged_nil (state : MemoryState) : RowsPurged [] state state := by
  refine ⟨rfl, rfl, rfl, rfl, fun id => ?_, rfl, rfl, rfl, rfl⟩
  cases state.jobExecutionsByInstance[id]? <;> simp

/-- A candidate leaves the list of its own instance. -/
private theorem removeJobExecution_lists (state : MemoryState) (candidate : PurgeCandidate)
    (id : JobInstanceId) :
    (removeJobExecution state candidate).jobExecutionsByInstance[id]? =
      state.jobExecutionsByInstance[id]?.map fun listed => listed.filter fun execution =>
        decide (candidate.jobInstanceId = id → candidate.jobExecutionId ≠ execution) := by
  unfold removeJobExecution
  dsimp only
  by_cases same : candidate.jobInstanceId = id
  · subst same
    cases held : state.jobExecutionsByInstance[candidate.jobInstanceId]? with
    | none => simp only [held, Option.map_none]
    | some listed =>
      simp only [lookup_insert, if_pos, Option.map_some, forall_const, ne_comm]
  · cases held : state.jobExecutionsByInstance[candidate.jobInstanceId]? with
    | none => simp [same]
    | some listed =>
      simp only [lookup_insert, if_neg same]
      simp [same]

theorem RowsPurged.cons {candidate : PurgeCandidate} {candidates : List PurgeCandidate}
    (purged : RowsPurged candidates (purgeCandidate state candidate) state') :
    RowsPurged (candidate :: candidates) state state' := by
  obtain ⟨rows, attempts, definitions, parameters, lists, instances, keys, counters, links⟩ :=
    removeStepExecutions_jobs (removeOperatorRequests
      { removeFlowDecisions state candidate.jobExecutionId with
        recoveryDecisions := state.recoveryDecisions.erase candidate.jobExecutionId }
      candidate.jobExecutionId) candidate.jobExecutionId
  refine ⟨?_, ?_, ?_, ?_, fun id => ?_, ?_, ?_, ?_, ?_⟩
  · refine purged.rows.trans (congrArg (fun table => eraseAll table _) ?_)
    exact congrArg (fun table => ExtTreeMap.erase table candidate.jobExecutionId) rows
  · refine purged.attempts.trans (congrArg (fun table => eraseAll table _) ?_)
    exact congrArg (fun table => ExtTreeMap.erase table candidate.jobExecutionId) attempts
  · refine purged.definitions.trans (congrArg (fun table => eraseAll table _) ?_)
    exact congrArg (fun table => ExtTreeMap.erase table candidate.jobExecutionId) definitions
  · refine purged.parameters.trans (congrArg (fun table => eraseAll table _) ?_)
    exact congrArg (fun table => ExtTreeMap.erase table candidate.jobExecutionId) parameters
  · have first := removeJobExecution_lists (removeStepExecutions (removeOperatorRequests
      { removeFlowDecisions state candidate.jobExecutionId with
        recoveryDecisions := state.recoveryDecisions.erase candidate.jobExecutionId }
      candidate.jobExecutionId) candidate.jobExecutionId) candidate id
    rw [lists] at first
    rw [purged.lists id]
    refine (congrArg (Option.map _) first).trans ?_
    rw [Option.map_map]
    refine congrArg (fun change => Option.map change state.jobExecutionsByInstance[id]?) ?_
    funext listed
    simp only [Function.comp_apply, List.filter_filter, List.mem_cons, forall_eq_or_imp,
      Bool.decide_and, Bool.and_comm]
  · exact purged.instances.trans instances
  · exact purged.keys.trans keys
  · exact purged.counters.trans counters
  · exact purged.links.trans links

theorem rowsPurged (candidates : List PurgeCandidate) (state : MemoryState) :
    RowsPurged candidates state (candidates.foldl purgeCandidate state) := by
  induction candidates generalizing state with
  | nil => exact rowsPurged_nil state
  | cons candidate candidates ih => exact (ih (purgeCandidate state candidate)).cons

/-- An instance without executions, or one that is gone already. -/
def Emptied (state : MemoryState) (id : JobInstanceId) : Prop :=
  (state.jobExecutionsByInstance[id]? = some [] ∧ id ∈ state.instancesById) ∨
    (state.jobExecutionsByInstance[id]? = none ∧ state.instancesById[id]? = none ∧
      state.nextExecutionAttemptByInstance[id]? = none)

/-- What the removal of emptied instances takes. -/
structure InstancesPurged (ids : List JobInstanceId) (state state' : MemoryState) : Prop where
  gone : ∀ id ∈ ids, state'.jobExecutionsByInstance[id]? = none ∧
    state'.instancesById[id]? = none ∧ state'.nextExecutionAttemptByInstance[id]? = none
  kept : ∀ id ∉ ids,
    state'.jobExecutionsByInstance[id]? = state.jobExecutionsByInstance[id]? ∧
    state'.instancesById[id]? = state.instancesById[id]? ∧
    state'.nextExecutionAttemptByInstance[id]? = state.nextExecutionAttemptByInstance[id]?
  keys : ∀ (key : JobInstanceKey) (id : JobInstanceId), state'.instancesByKey[key]? = some id ↔
    state.instancesByKey[key]? = some id ∧
      ∀ other ∈ ids, ∀ row, state.instancesById[other]? = some row → row.key ≠ key
  rows : state'.jobExecutions = state.jobExecutions
  attempts : state'.executionAttempts = state.executionAttempts
  definitions : state'.executionDefinitions = state.executionDefinitions
  parameters : state'.jobParameters = state.jobParameters
  links : state'.nestedJobLinks = state.nestedJobLinks

private theorem purgeInstance_purged {id : JobInstanceId} (emptied : Emptied state id) :
    InstancesPurged [id] state (purgeInstance state id) := by
  rcases emptied with ⟨empty, stored⟩ | ⟨unlisted, absent, uncounted⟩
  · obtain ⟨row, found⟩ := mem_iff_lookup.mp stored
    unfold purgeInstance
    rw [if_pos empty, found]
    refine ⟨?_, ?_, ?_, rfl, rfl, rfl, rfl, rfl⟩
    · intro other member
      obtain rfl := List.mem_singleton.mp member
      simp only [lookup_erase, if_pos, and_self]
    · intro other absent
      have different : id ≠ other := fun same => absent (by simp [same])
      simp only [lookup_erase, if_neg different, and_self]
    · intro key other
      simp only [lookup_erase, List.mem_singleton, forall_eq, found, Option.some.injEq,
        forall_eq']
      by_cases same : row.key = key
      · simp [same]
      · simp [same]
  · unfold purgeInstance
    rw [if_neg (by simp [unlisted])]
    refine ⟨?_, fun _ _ => ⟨rfl, rfl, rfl⟩, ?_, rfl, rfl, rfl, rfl, rfl⟩
    · intro other member
      obtain rfl := List.mem_singleton.mp member
      exact ⟨unlisted, absent, uncounted⟩
    · simp [absent]

theorem InstancesPurged.cons {id : JobInstanceId} {ids : List JobInstanceId}
    {middle : MemoryState} (first : InstancesPurged [id] state middle)
    (rest : InstancesPurged ids middle state') : InstancesPurged (id :: ids) state state' := by
  refine ⟨?_, ?_, ?_, rest.rows.trans first.rows, rest.attempts.trans first.attempts,
    rest.definitions.trans first.definitions, rest.parameters.trans first.parameters,
    rest.links.trans first.links⟩
  · intro other member
    by_cases later : other ∈ ids
    · exact rest.gone other later
    · obtain rfl : other = id := by simpa [later] using member
      obtain ⟨lists, instances, counters⟩ := rest.kept other later
      rw [lists, instances, counters]
      exact first.gone other (by simp)
  · intro other absent
    obtain ⟨here, there⟩ := not_or.mp (List.mem_cons.not.mp absent)
    obtain ⟨lists, instances, counters⟩ := rest.kept other there
    rw [lists, instances, counters]
    exact first.kept other (by simpa using here)
  · intro key other
    rw [rest.keys, first.keys]
    constructor
    · rintro ⟨⟨found, different⟩, others⟩
      refine ⟨found, fun owner member row stored => ?_⟩
      rcases List.mem_cons.mp member with rfl | later
      · exact different owner (by simp) row stored
      · by_cases same : owner = id
        · exact different owner (by simp [same]) row stored
        · refine others owner later row ?_
          rw [(first.kept owner (by simpa using same)).2.1]
          exact stored
    · rintro ⟨found, others⟩
      refine ⟨⟨found, fun owner member row stored => ?_⟩, fun owner member row stored => ?_⟩
      · exact others owner (by simp [List.mem_singleton.mp member]) row stored
      · by_cases same : owner = id
        · rw [(first.gone owner (by simp [same])).2.1] at stored
          cases stored
        · rw [(first.kept owner (by simpa using same)).2.1] at stored
          exact others owner (List.mem_cons_of_mem _ member) row stored

private theorem instancesPurged {ids : List JobInstanceId}
    (emptied : ∀ id ∈ ids, Emptied state id) :
    InstancesPurged ids state (ids.foldl purgeInstance state) := by
  induction ids generalizing state with
  | nil =>
    exact ⟨by simp, fun _ _ => ⟨rfl, rfl, rfl⟩, by simp, rfl, rfl, rfl, rfl, rfl⟩
  | cons id ids ih =>
    have first := purgeInstance_purged (emptied id (by simp))
    refine first.cons (ih fun other member => ?_)
    by_cases same : other = id
    · exact .inr (first.gone other (by simp [same]))
    · obtain ⟨lists, instances, counters⟩ := first.kept other (by simpa using same)
      unfold Emptied
      rw [lists, instances, counters, mem_iff_lookup, instances, ← mem_iff_lookup]
      exact emptied other (List.mem_cons_of_mem _ member)

theorem mem_dedupNeighbours {α : Type} [DecidableEq α] {value : α} {values : List α} :
    value ∈ dedupNeighbours values ↔ value ∈ values := by
  fun_induction dedupNeighbours values with
  | case1 => rfl
  | case2 => rfl
  | case3 first rest ih =>
    rw [ih]
    simp
  | case4 first second rest _ ih =>
    rw [List.mem_cons, ih, ← List.mem_cons]

/-- A plan takes all executions of an instance or none, and names each under the
instance that owns it. -/
structure TakesWhole (state : MemoryState) (candidates : List PurgeCandidate) : Prop where
  owned : ∀ candidate ∈ candidates, ∀ row,
    state.jobExecutions[candidate.jobExecutionId]? = some row →
      row.jobInstanceId = candidate.jobInstanceId
  whole : ∀ candidate ∈ candidates, ∀ listed : List JobExecutionId,
    state.jobExecutionsByInstance[candidate.jobInstanceId]? = some listed →
      ∀ id ∈ listed, ∃ other ∈ candidates, other.jobExecutionId = id

/-- The instances a plan takes. -/
def Taken (candidates : List PurgeCandidate) (id : JobInstanceId) : Prop :=
  ∃ candidate ∈ candidates, candidate.jobInstanceId = id

/-- Whole instances are gone with their executions, and the others are as before. -/
structure WholePurged (candidates : List PurgeCandidate) (state state' : MemoryState) : Prop where
  gone : ∀ id, Taken candidates id → state'.jobExecutionsByInstance[id]? = none ∧
    state'.instancesById[id]? = none ∧ state'.nextExecutionAttemptByInstance[id]? = none
  kept : ∀ id, ¬ Taken candidates id →
    state'.jobExecutionsByInstance[id]? = state.jobExecutionsByInstance[id]? ∧
    state'.instancesById[id]? = state.instancesById[id]? ∧
    state'.nextExecutionAttemptByInstance[id]? = state.nextExecutionAttemptByInstance[id]?
  keys : ∀ (key : JobInstanceKey) (id : JobInstanceId), state'.instancesByKey[key]? = some id ↔
    state.instancesByKey[key]? = some id ∧ ¬ Taken candidates id
  rows : ∀ (id : JobExecutionId) (row : JobExecution), state'.jobExecutions[id]? = some row ↔
    state.jobExecutions[id]? = some row ∧ ¬ Taken candidates row.jobInstanceId
  others : ∀ (id : JobExecutionId) (row : JobExecution), state.jobExecutions[id]? = some row →
    ¬ Taken candidates row.jobInstanceId →
    state'.executionAttempts[id]? = state.executionAttempts[id]? ∧
    state'.executionDefinitions[id]? = state.executionDefinitions[id]? ∧
    state'.jobParameters[id]? = state.jobParameters[id]?
  links : state'.nestedJobLinks = state.nestedJobLinks

theorem checkCandidate_ok {request : PurgePlanRequest} {candidate : PurgeCandidate}
    (checked : checkCandidate state request candidate = .ok ()) :
    ∃ row, state.jobExecutions[candidate.jobExecutionId]? = some row := by
  simp only [checkCandidate, bind_ok, require_ok] at checked
  obtain ⟨row, stored, _⟩ := checked
  exact ⟨row, stored⟩

section Whole

variable {candidates : List PurgeCandidate} (indexed : Indexed state.core)
  (takes : TakesWhole state candidates)
  (stored : ∀ candidate ∈ candidates, ∃ row,
    state.jobExecutions[candidate.jobExecutionId]? = some row)

include indexed takes stored

/-- An execution is a candidate exactly when its instance is taken. -/
private theorem taken_iff {id : JobExecutionId} {row : JobExecution}
    (found : state.jobExecutions[id]? = some row) :
    id ∈ candidates.map (·.jobExecutionId) ↔ Taken candidates row.jobInstanceId := by
  constructor
  · intro member
    obtain ⟨candidate, present, rfl⟩ := List.mem_map.mp member
    exact ⟨candidate, present, (takes.owned candidate present row found).symm⟩
  · rintro ⟨candidate, present, same⟩
    obtain ⟨listed, lists, member⟩ := indexed.listed.complete id row found
    obtain ⟨other, present', named⟩ := takes.whole candidate present listed
      (same.symm ▸ lists) id member
    exact List.mem_map.mpr ⟨other, present', named⟩

private theorem taken_listed {id : JobInstanceId} (taken : Taken candidates id) :
    ∃ listed, state.jobExecutionsByInstance[id]? = some listed ∧
      ∀ execution ∈ listed, ∃ candidate ∈ candidates,
        candidate.jobInstanceId = id ∧ candidate.jobExecutionId = execution := by
  obtain ⟨candidate, present, rfl⟩ := taken
  obtain ⟨row, found⟩ := stored candidate present
  obtain ⟨listed, lists, _⟩ := indexed.listed.complete _ row found
  rw [takes.owned candidate present row found] at lists
  refine ⟨listed, lists, fun execution member => ?_⟩
  obtain ⟨other, present', rfl⟩ := takes.whole candidate present listed lists execution member
  obtain ⟨row', found', owner⟩ := indexed.listed.stored _ listed lists _ member
  exact ⟨other, present', (takes.owned other present' row' found').symm.trans owner, rfl⟩

theorem purged_whole : WholePurged candidates state (purged state candidates) := by
  have first := rowsPurged candidates state
  have instances : ∀ id, id ∈ dedupNeighbours (candidates.map (·.jobInstanceId)) ↔
      Taken candidates id := fun id => by
    rw [mem_dedupNeighbours, List.mem_map]
    rfl
  have emptied : ∀ id ∈ dedupNeighbours (candidates.map (·.jobInstanceId)),
      Emptied (candidates.foldl purgeCandidate state) id := by
    intro id member
    obtain ⟨listed, lists, named⟩ := taken_listed indexed takes stored ((instances id).mp member)
    refine .inl ⟨?_, ?_⟩
    · rw [first.lists, lists, Option.map_some]
      refine congrArg some (List.filter_eq_nil_iff.mpr fun execution present => ?_)
      obtain ⟨candidate, among, same, rfl⟩ := named execution present
      simp only [decide_eq_true_eq, not_forall, not_not]
      exact ⟨candidate, among, same, rfl⟩
    · rw [first.instances]
      exact (indexed.lists id).mp (mem_of_lookup lists)
  have second : InstancesPurged _ _ (purged state candidates) := instancesPurged emptied
  refine ⟨?_, ?_, ?_, ?_, ?_, second.links.trans first.links⟩
  · exact fun id taken => second.gone id ((instances id).mpr taken)
  · intro id untaken
    obtain ⟨lists, rows, counters⟩ := second.kept id (untaken ∘ (instances id).mp)
    refine ⟨lists.trans ?_, rows.trans (by rw [first.instances]),
      counters.trans (by rw [first.counters])⟩
    rw [first.lists id]
    cases state.jobExecutionsByInstance[id]? with
    | none => rfl
    | some listed =>
      refine congrArg some (List.filter_eq_self.mpr fun execution _ => ?_)
      simp only [decide_eq_true_eq]
      exact fun candidate present same _ => untaken ⟨candidate, present, same⟩
  · intro key id
    rw [second.keys, first.keys, first.instances]
    refine and_congr_right fun found => ?_
    obtain ⟨row, held, same⟩ := indexed.keys key id found
    constructor
    · exact fun others taken => others id ((instances id).mpr taken) row held same
    · intro untaken other member row' held' same'
      have found' : state.instancesByKey[key]? = some other := same' ▸ indexed.found other row' held'
      obtain rfl := Option.some.inj (found.symm.trans found')
      exact untaken ((instances id).mp member)
  · intro id row
    rw [second.rows, first.rows, lookup_eraseAll]
    constructor
    · intro found
      split at found
      · cases found
      · rename_i absent
        exact ⟨found, absent ∘ (taken_iff indexed takes stored found).mpr⟩
    · rintro ⟨found, untaken⟩
      rw [if_neg (untaken ∘ (taken_iff indexed takes stored found).mp)]
      exact found
  · intro id row found untaken
    have absent := untaken ∘ (taken_iff indexed takes stored found).mp
    rw [second.attempts, second.definitions, second.parameters, first.attempts, first.definitions,
      first.parameters]
    simp only [lookup_eraseAll, if_neg absent, and_self]

end Whole

theorem WholePurged.indexed {candidates : List PurgeCandidate}
    (whole : WholePurged candidates state state') (indexed : Indexed state.core) :
    Indexed state'.core := by
  have untaken : ∀ {id : JobInstanceId}, id ∈ state'.instancesById → ¬ Taken candidates id := by
    intro id member taken
    rw [mem_iff_lookup, (whole.gone id taken).2.1] at member
    simp at member
  refine ⟨?_, ?_, ?_, ?_, ?_, ?_⟩
  · intro key id found
    obtain ⟨before, kept⟩ := (whole.keys key id).mp found
    obtain ⟨row, stored, same⟩ := indexed.keys key id before
    exact ⟨row, (whole.kept id kept).2.1.trans stored, same⟩
  · intro id row found
    have kept := untaken (mem_of_lookup found)
    refine (whole.keys row.key id).mpr ⟨indexed.found id row ?_, kept⟩
    exact (whole.kept id kept).2.1.symm.trans found
  · intro id
    change id ∈ state'.jobExecutionsByInstance ↔ id ∈ state'.instancesById
    by_cases taken : Taken candidates id
    · obtain ⟨lists, instances, _⟩ := whole.gone id taken
      simp [mem_iff_lookup, lists, instances]
    · obtain ⟨lists, instances, _⟩ := whole.kept id taken
      rw [mem_iff_lookup, mem_iff_lookup, lists, instances, ← mem_iff_lookup, ← mem_iff_lookup]
      exact indexed.lists id
  · intro id listed found
    by_cases taken : Taken candidates id
    · cases (whole.gone id taken).1.symm.trans found
    · exact indexed.listed.nodup id listed ((whole.kept id taken).1.symm.trans found)
  · intro id listed found execution member
    by_cases taken : Taken candidates id
    · cases (whole.gone id taken).1.symm.trans found
    · obtain ⟨row, stored, owner⟩ := indexed.listed.stored id listed
        ((whole.kept id taken).1.symm.trans found) execution member
      exact ⟨row, (whole.rows execution row).mpr ⟨stored, owner.symm ▸ taken⟩, owner⟩
  · intro id row found
    obtain ⟨stored, kept⟩ := (whole.rows id row).mp found
    obtain ⟨listed, lists, member⟩ := indexed.listed.complete id row stored
    exact ⟨listed, (whole.kept _ kept).1.trans lists, member⟩

end Purge

section Steps

/-- An operation that purges takes whole instances. -/
def Operation.TakesWholeInstances (state : MemoryState) (operation : Operation) : Prop :=
  ∀ plan, operation = .applyPurge plan → TakesWhole state plan.candidates

/-- Whether an operation is a purge. -/
def Operation.purges : Operation → Bool
  | .applyPurge _ => true
  | _ => false

theorem Operation.takesWhole_of_purges (other : operation.purges = false) :
    operation.TakesWholeInstances state := by
  rintro plan rfl
  cases other

theorem Change.indexed (change : Change reader operation state state')
    (allowed : operation.guarded = true → operation.TakesWholeInstances state)
    (indexed : Indexed state.core) : Indexed state'.core := by
  cases change with
  | quiet same => exact same ▸ indexed
  | entered added free unused core => exact core ▸ indexed.entered free unused
  | launched made upgrades => exact made.indexed indexed
  | moved rows => exact rows.indexed indexed
  | stepEntered made =>
    obtain ⟨_, _, _, _, _, core⟩ := made.tables
    exact core ▸ indexed.of_tables rfl rfl rfl rfl
  | decided decision unused core => exact core ▸ indexed.of_tables rfl rfl rfl rfl
  | repeated same accepted =>
    exact repeatRecorded_core accepted ▸ indexed.of_tables rfl rfl rfl rfl
  | parametersStored unset core => exact core ▸ indexed.of_tables rfl rfl rfl rfl
  | linkCreated free selected unobserved made => exact made ▸ indexed.of_tables rfl rfl rfl rfl
  | linkContinued free continued made => exact made ▸ indexed.of_tables rfl rfl rfl rfl
  | observed linked stored ended core => exact core ▸ indexed.of_tables rfl rfl rfl rfl
  | purged same checked =>
    subst same
    exact (purged_whole indexed (allowed rfl _ rfl) fun candidate member =>
      checkCandidate_ok (checked candidate member)).indexed indexed

end Steps

end OxideBatch.Repository
