import OxideBatch.Lib.Removals
import OxideBatch.Repository.AttemptRuns
import OxideBatch.Repository.Listings

/-! A surveyed purge on the state it was surveyed on: when it applies, and that it takes
from every table as many rows as the survey counts. -/

namespace OxideBatch.Repository

open OxideBatch.Core OxideBatch.Plan Program
open Std (ExtTreeMap ExtTreeSet)
open Tables Ledger

variable {reader : DefinitionReader} {state state' : MemoryState}

section Counts

variable {Key Value : Type} [Ord Key] [Std.TransOrd Key] [Std.LawfulEqOrd Key] [DecidableEq Key]
  {lists : ExtTreeMap Key (List Value)} {key : Key}

private theorem countUnder_erase {other : Key} (different : key ≠ other) :
    countUnder (lists.erase key) other = countUnder lists other := by
  unfold countUnder
  rw [lookup_erase, if_neg different]

private theorem counts_erase {keys : List Key} (absent : key ∉ keys) :
    keys.map (countUnder (lists.erase key)) = keys.map (countUnder lists) :=
  List.map_congr_left fun _ member => countUnder_erase fun same => absent (same ▸ member)

/-- The lists lose what stands under the key. -/
private theorem total_lists_erase :
    total List.length (lists.erase key) + countUnder lists key = total List.length lists := by
  have taken := @total_erase _ _ _ _ _ _ lists key List.length
  unfold countUnder
  cases held : lists[key]? with
  | none =>
    rw [held] at taken
    exact taken
  | some values =>
    rw [held] at taken
    exact taken

/-- The plans of distinct steps go with as many partitions as they list. -/
private theorem size_dropPlans {plans : PlanTables} (planned : Planned plans)
    {steps : List StepExecutionId} (distinct : steps.Nodup) :
    (dropPlans plans steps).1.size + (steps.map (countUnder plans.2)).sum = plans.1.size := by
  induction steps generalizing plans with
  | nil => rfl
  | cons step steps ih =>
    obtain ⟨absent, rest⟩ := List.nodup_cons.mp distinct
    have here := Listed.size_eraseOwner planned step
    have later := @ih (eraseAll plans.1 (plans.2[step]?.getD []), plans.2.erase step)
      (Listed.eraseOwner planned step) rest
    dsimp only at later
    rw [counts_erase absent] at later
    have counted : countUnder plans.2 step = (plans.2[step]?.getD []).length := rfl
    rw [List.map_cons, List.sum_cons, counted, ← here, ← later]
    exact (congrArg (_ + ·) (Nat.add_comm _ _)).trans (Nat.add_assoc _ _ _).symm

/-- Other steps keep their plans. -/
private theorem lookup_dropPlans {plans : PlanTables} {steps : List StepExecutionId}
    {other : StepExecutionId} (kept : other ∉ steps) :
    (dropPlans plans steps).2[other]? = plans.2[other]? := by
  induction steps generalizing plans with
  | nil => rfl
  | cons step steps ih =>
    obtain ⟨different, rest⟩ := not_or.mp (List.mem_cons.not.mp kept)
    exact (ih rest).trans (by rw [lookup_erase, if_neg (Ne.symm different)])

end Counts

section Rows

/-- The rows a list of executions takes along. -/
structure RowCounts where
  flowDecisions : Nat
  recoveryDecisions : Nat
  operatorRequests : Nat
  stepPartitions : Nat
  stepExecutions : Nat
  jobExecutions : Nat

/-- How many rows hang on some executions. -/
def rowCounts (state : MemoryState) (executions : List JobExecutionId) : RowCounts where
  flowDecisions := (executions.map (countUnder state.flowDecisionsByJob)).sum
  recoveryDecisions := (executions.map (countUnder state.recoveryDecisions)).sum
  operatorRequests := (executions.map fun id =>
    state.operatorRequests.toList.countP fun entry => entry.2.jobExecutionId = some id).sum
  stepPartitions := (executions.map fun id =>
    ((state.stepExecutionsByJob[id]?.getD []).map (countUnder state.stepPartitionsByStep)).sum).sum
  stepExecutions := (executions.map (countUnder state.stepExecutionsByJob)).sum
  jobExecutions := executions.length

/-- The rows counted are those that are gone. -/
structure RowsTaken (counts : RowCounts) (before after : MemoryState) : Prop where
  flowDecisions : after.flowDecisions.size + counts.flowDecisions = before.flowDecisions.size
  recoveryDecisions : total List.length after.recoveryDecisions + counts.recoveryDecisions =
    total List.length before.recoveryDecisions
  operatorRequests :
    after.operatorRequests.size + counts.operatorRequests = before.operatorRequests.size
  stepPartitions : after.stepPartitions.size + counts.stepPartitions = before.stepPartitions.size
  stepExecutions : after.stepExecutions.size + counts.stepExecutions = before.stepExecutions.size
  jobExecutions : after.jobExecutions.size + counts.jobExecutions = before.jobExecutions.size

variable {candidate : PurgeCandidate}

/-- One candidate takes along what its execution counts. -/
private theorem candidate_taken (filed : Filed state.core) (planned : Planned state.plans)
    (stored : candidate.jobExecutionId ∈ state.jobExecutions) :
    RowsTaken (rowCounts state [candidate.jobExecutionId]) state
      (purgeCandidate state candidate) := by
  have purged := candidatePurged candidate state
  have distinct : (state.stepExecutionsByJob[candidate.jobExecutionId]?.getD []).Nodup := by
    cases held : state.stepExecutionsByJob[candidate.jobExecutionId]? with
    | none => exact .nil
    | some steps => exact filed.steps.nodup _ steps held
  refine ⟨?_, ?_, ?_, ?_, ?_, ?_⟩
  · rw [purged.decisions]
    exact filed.decisions.size_eraseOwner candidate.jobExecutionId
  · rw [purged.recoveries]
    exact total_lists_erase
  · rw [purged.requests]
    exact size_eraseAll_filter
  · have plans : (purgeCandidate state candidate).stepPartitions = _ :=
      congrArg Prod.fst purged.plans
    rw [plans]
    exact size_dropPlans planned distinct
  · rw [purged.steps]
    exact filed.steps.size_eraseOwner candidate.jobExecutionId
  · rw [purged.rows]
    exact size_erase_mem stored

/-- The counts of other executions stay. -/
private theorem rowCounts_purgeCandidate (filed : Filed state.core)
    {executions : List JobExecutionId}
    (other : candidate.jobExecutionId ∉ executions) :
    rowCounts (purgeCandidate state candidate) executions = rowCounts state executions := by
  have purged := candidatePurged candidate state
  have plans : (purgeCandidate state candidate).stepPartitionsByStep = _ :=
    congrArg Prod.snd purged.plans
  unfold rowCounts
  congr 1
  · rw [purged.decisionLists, counts_erase other]
  · rw [purged.recoveries, counts_erase other]
  · refine congrArg List.sum (List.map_congr_left fun id member => ?_)
    rw [purged.requests]
    refine countP_eraseAll fun key among record found => ?_
    obtain ⟨entry, listed, rfl⟩ := List.mem_map.mp among
    obtain ⟨present, holds⟩ := List.mem_filter.mp listed
    have same := ExtTreeMap.mem_toList_iff_getElem?_eq_some.mp present
    rw [found] at same
    obtain rfl := Option.some.inj same
    have named : entry.2.jobExecutionId = some candidate.jobExecutionId := of_decide_eq_true holds
    have different : candidate.jobExecutionId ≠ id := fun same => other (same ▸ member)
    simp [named, different]
  · refine congrArg List.sum (List.map_congr_left fun id member => ?_)
    have different : candidate.jobExecutionId ≠ id := fun same => other (same ▸ member)
    rw [purged.stepLists, lookup_erase, if_neg different, plans]
    refine congrArg List.sum (List.map_congr_left fun step listed => ?_)
    refine congrArg (fun held : Option (List StepPartitionId) => (held.getD []).length)
      (lookup_dropPlans fun among => ?_)
    -- a step is listed under one execution only
    have owner : ∀ {execution : JobExecutionId},
        step ∈ state.stepExecutionsByJob[execution]?.getD [] →
        ∃ row, state.stepExecutions[step]? = some row ∧ row.jobExecutionId = execution := by
      intro execution member
      cases held : state.stepExecutionsByJob[execution]? with
      | none => simp [held] at member
      | some steps => exact filed.steps.stored execution steps held step (by simpa [held] using member)
    obtain ⟨row, found, owned⟩ := owner among
    obtain ⟨row', found', owned'⟩ := owner listed
    rw [found] at found'
    obtain rfl := Option.some.inj found'
    exact different (owned.symm.trans owned')
  · rw [purged.stepLists, counts_erase other]

theorem RowsTaken.cons {first : JobExecutionId} {rest : List JobExecutionId}
    {middle : MemoryState} (here : RowsTaken (rowCounts state [first]) state middle)
    (later : RowsTaken (rowCounts state rest) middle state') :
    RowsTaken (rowCounts state (first :: rest)) state state' := by
  obtain ⟨decisions, recoveries, requests, partitions, steps, rows⟩ := here
  obtain ⟨decisions', recoveries', requests', partitions', steps', rows'⟩ := later
  simp only [rowCounts, List.map_cons, List.map_nil, List.sum_cons, List.sum_nil, Nat.add_zero,
    List.length_cons, List.length_nil, Nat.zero_add] at *
  refine ⟨?_, ?_, ?_, ?_, ?_, ?_⟩ <;> dsimp only <;> omega

private theorem candidates_taken {candidates : List PurgeCandidate} (filed : Filed state.core)
    (planned : Planned state.plans) (distinct : (candidates.map (·.jobExecutionId)).Nodup)
    (stored : ∀ candidate ∈ candidates, candidate.jobExecutionId ∈ state.jobExecutions) :
    RowsTaken (rowCounts state (candidates.map (·.jobExecutionId))) state
      (candidates.foldl purgeCandidate state) := by
  induction candidates generalizing state with
  | nil => exact ⟨rfl, rfl, rfl, rfl, rfl, rfl⟩
  | cons candidate candidates ih =>
    obtain ⟨absent, rest⟩ := List.nodup_cons.mp distinct
    have purged := candidatePurged candidate state
    refine (candidate_taken filed planned (stored candidate (by simp))).cons ?_
    rw [← rowCounts_purgeCandidate filed absent]
    refine ih (purged.filed filed) ?_ rest fun other member => ?_
    · rw [purged.plans]
      exact planned.drop _
    · have different : candidate.jobExecutionId ≠ other.jobExecutionId := fun same =>
        absent (List.mem_map.mpr ⟨other, member, same.symm⟩)
      rw [purged.rows, mem_iff_lookup, lookup_erase, if_neg different, ← mem_iff_lookup]
      exact stored other (List.mem_cons_of_mem _ member)

end Rows

section Instances

/-- An instance that lists nothing goes with its list. -/
private theorem purgeInstance_gone {id : JobInstanceId}
    (empty : state.jobExecutionsByInstance[id]? = some []) (known : id ∈ state.instancesById) :
    (purgeInstance state id).instancesById = state.instancesById.erase id ∧
      (purgeInstance state id).jobExecutionsByInstance =
        state.jobExecutionsByInstance.erase id := by
  obtain ⟨row, found⟩ := mem_iff_lookup.mp known
  unfold purgeInstance
  rw [if_pos empty, found]
  exact ⟨rfl, rfl⟩

/-- Other instances stay, with their lists. -/
private theorem purgeInstance_spares {id other : JobInstanceId} (different : id ≠ other) :
    (purgeInstance state id).instancesById[other]? = state.instancesById[other]? ∧
      (purgeInstance state id).jobExecutionsByInstance[other]? =
        state.jobExecutionsByInstance[other]? := by
  unfold purgeInstance
  split
  · split
    · exact ⟨rfl, rfl⟩
    · exact ⟨lookup_erase.trans (if_neg different), lookup_erase.trans (if_neg different)⟩
  · exact ⟨rfl, rfl⟩

/-- Of the instances named, those that list nothing go. -/
theorem lookup_purgeInstances {ids : List JobInstanceId} (other : JobInstanceId)
    (known : state.jobExecutionsByInstance[other]? = some [] → other ∈ state.instancesById) :
    (ids.foldl purgeInstance state).instancesById[other]? =
      if other ∈ ids ∧ state.jobExecutionsByInstance[other]? = some [] then none
      else state.instancesById[other]? := by
  induction ids generalizing state with
  | nil => simp
  | cons id ids ih =>
    rw [List.foldl_cons]
    by_cases same : id = other
    · subst same
      by_cases empty : state.jobExecutionsByInstance[id]? = some []
      · obtain ⟨rows, lists⟩ := purgeInstance_gone empty (known empty)
        have unlisted : (purgeInstance state id).jobExecutionsByInstance[id]? = none := by
          rw [lists, lookup_erase, if_pos rfl]
        have gone : (purgeInstance state id).instancesById[id]? = none := by
          rw [rows, lookup_erase, if_pos rfl]
        rw [ih, unlisted, gone]
        · simp [empty]
        · rw [unlisted]
          exact fun listed => by cases listed
      · have still : purgeInstance state id = state := by
          unfold purgeInstance
          rw [if_neg empty]
        rw [still, ih known]
        simp [empty]
    · obtain ⟨rows, lists⟩ := @purgeInstance_spares state id other same
      rw [ih, rows, lists]
      · simp [Ne.symm same]
      · rw [lists, mem_iff_lookup, rows, ← mem_iff_lookup]
        exact known

/-- Executions are listed once, under the instances that own them, and every list is of an
instance. -/
structure Placed (state : MemoryState) : Prop where
  lists : ∀ id : JobInstanceId, id ∈ state.jobExecutionsByInstance ↔ id ∈ state.instancesById
  nodup : ∀ (owner : JobInstanceId) (listed : List JobExecutionId),
    state.jobExecutionsByInstance[owner]? = some listed → listed.Nodup
  owned : ∀ (owner : JobInstanceId) (listed : List JobExecutionId),
    state.jobExecutionsByInstance[owner]? = some listed → ∀ id ∈ listed, ∀ row,
      state.jobExecutions[id]? = some row → row.jobInstanceId = owner

/-- Candidates that are listed under the instances they name. -/
structure Addressed (state : MemoryState) (candidates : List PurgeCandidate) : Prop where
  distinct : (candidates.map (·.jobExecutionId)).Nodup
  stored : ∀ candidate ∈ candidates, candidate.jobExecutionId ∈ state.jobExecutions
  listed : ∀ candidate ∈ candidates, ∃ listed,
    state.jobExecutionsByInstance[candidate.jobInstanceId]? = some listed ∧
      candidate.jobExecutionId ∈ listed

variable {candidates : List PurgeCandidate}

/-- An instance loses its last execution when as many are candidates as it lists. -/
private theorem emptied_iff (placed : Placed state) (addressed : Addressed state candidates)
    {id : JobInstanceId} (named : id ∈ candidates.map (·.jobInstanceId)) :
    (candidates.foldl purgeCandidate state).jobExecutionsByInstance[id]? = some [] ↔
      countUnder state.jobExecutionsByInstance id = (candidates.map (·.jobInstanceId)).count id := by
  obtain ⟨first, among, rfl⟩ := List.mem_map.mp named
  obtain ⟨listed, lists, _⟩ := addressed.listed first among
  let own := (candidates.filter (·.jobInstanceId = first.jobInstanceId)).map (·.jobExecutionId)
  have nodup : own.Nodup := addressed.distinct.sublist (List.filter_sublist.map _)
  have within : own ⊆ listed := by
    intro execution member
    obtain ⟨candidate, chosen, rfl⟩ := List.mem_map.mp member
    obtain ⟨present, same⟩ := List.mem_filter.mp chosen
    obtain ⟨listed', lists', held⟩ := addressed.listed candidate present
    rw [of_decide_eq_true same, lists] at lists'
    exact Option.some.inj lists' ▸ held
  have counted : (candidates.map (·.jobInstanceId)).count first.jobInstanceId = own.length := by
    rw [List.length_map, ← List.countP_eq_length_filter, List.count, List.countP_map]
    rfl
  have under : countUnder state.jobExecutionsByInstance first.jobInstanceId = listed.length := by
    unfold countUnder
    rw [lists]
    rfl
  have emptied : (candidates.foldl purgeCandidate state).jobExecutionsByInstance[
      first.jobInstanceId]? = some [] ↔ listed ⊆ own := by
    rw [(rowsPurged candidates state).lists, lists, Option.map_some, Option.some.injEq,
      List.filter_eq_nil_iff]
    refine forall₂_congr fun execution _ => ?_
    simp only [decide_eq_true_eq, not_forall, not_not, own, List.mem_map, List.mem_filter]
    constructor
    · rintro ⟨candidate, present, same, named⟩
      exact ⟨candidate, ⟨present, same⟩, named⟩
    · rintro ⟨candidate, ⟨present, same⟩, named⟩
      exact ⟨candidate, present, same, named⟩
  rw [emptied, under, counted]
  constructor
  · intro covers
    exact ((placed.nodup _ listed lists).subperm covers).antisymm (nodup.subperm within)
      |>.length_eq
  · intro same
    exact ((nodup.subperm within).perm_of_length_le same.le).symm.subset

/-- The instances that are gone are those the counts call emptied. -/
private theorem instances_taken (placed : Placed state) (addressed : Addressed state candidates) :
    (purged state candidates).instancesById.size + (emptiedInstances state candidates).length =
      state.instancesById.size := by
  have first := rowsPurged candidates state
  have known : ∀ id : JobInstanceId,
      (candidates.foldl purgeCandidate state).jobExecutionsByInstance[id]? = some [] →
      id ∈ (candidates.foldl purgeCandidate state).instancesById := by
    intro id empty
    rw [first.instances, ← placed.lists]
    rw [first.lists] at empty
    obtain ⟨listed, lists, _⟩ := Option.map_eq_some_iff.mp empty
    exact mem_of_lookup lists
  have member : ∀ id, id ∈ emptiedInstances state candidates ↔
      id ∈ dedupNeighbours (candidates.map (·.jobInstanceId)) ∧
        (candidates.foldl purgeCandidate state).jobExecutionsByInstance[id]? = some [] := by
    intro id
    unfold emptiedInstances
    rw [List.mem_filter, List.mem_dedup, mem_dedupNeighbours, decide_eq_true_eq]
    exact and_congr_right fun named => (emptied_iff placed addressed named).symm
  have gone : (purged state candidates).instancesById =
      eraseAll state.instancesById (emptiedInstances state candidates) := by
    apply ExtTreeMap.ext_getElem?
    intro id
    unfold purged
    rw [lookup_purgeInstances id (known id), lookup_eraseAll, first.instances]
    exact if_congr (member id).symm rfl rfl
  rw [gone]
  refine size_eraseAll ((List.nodup_dedup _).filter _) fun id among => ?_
  have empty := ((member id).mp among).2
  have held := known id empty
  rw [first.instances] at held
  exact held

end Instances

section Survey

variable {request : PurgePlanRequest} {now : SystemTime}

/-- What a survey knows of a candidate. -/
structure Chosen (state : MemoryState) (request : PurgePlanRequest) (candidate : PurgeCandidate) :
    Prop where
  free : candidate.jobInstanceId ∉ state.holds
  settled : ∀ row ∈ state.executionsOf candidate.jobInstanceId, row.status.isFinished = true
  row : ∃ row ∈ state.executionsOf candidate.jobInstanceId, row.id = candidate.jobExecutionId ∧
    row.version = candidate.version ∧ request.statuses.contains row.status = true

private theorem mem_executionsOf {id : JobInstanceId} {row : JobExecution} :
    row ∈ state.executionsOf id ↔ ∃ listed, state.jobExecutionsByInstance[id]? = some listed ∧
      ∃ execution ∈ listed, state.jobExecutions[execution]? = some row := by
  unfold MemoryState.executionsOf
  rw [List.mem_filterMap]
  cases state.jobExecutionsByInstance[id]? <;> simp

private theorem mem_instanceCandidates {entry : JobInstanceId × JobInstance}
    {candidate : PurgeCandidate}
    (member : candidate ∈ instanceCandidates state request now entry) :
    candidate.jobInstanceId = entry.1 ∧ Chosen state request candidate := by
  unfold instanceCandidates at member
  dsimp only at member
  split at member
  · cases member
  · rename_i eligible
    split at member
    · cases member
    · rename_i settled
      obtain ⟨row, chosen, rfl⟩ := List.mem_map.mp member
      obtain ⟨present, suits⟩ := List.mem_filter.mp chosen
      simp only [purgeable, Bool.and_eq_true] at suits
      refine ⟨rfl, ?_, ?_, row, present, rfl, rfl, suits.1.1⟩
      · exact fun held => eligible (.inr (ExtTreeMap.contains_iff_mem.mpr held))
      · simpa using settled

private theorem purgeEligible_sublist (state : MemoryState) (request : PurgePlanRequest)
    (now : SystemTime) : ∃ order, order.Perm (state.instancesById.toList.flatMap
      (instanceCandidates state request now)) ∧
        (purgeEligible state request now).Sublist order :=
  ⟨_, List.perm_insertionSort _ _, List.take_sublist _ _⟩

theorem chosen_of_mem {candidate : PurgeCandidate}
    (member : candidate ∈ purgeEligible state request now) : Chosen state request candidate := by
  obtain ⟨order, moved, sub⟩ := purgeEligible_sublist state request now
  obtain ⟨entry, _, among⟩ := List.mem_flatMap.mp (moved.mem_iff.mp (sub.mem member))
  exact (mem_instanceCandidates among).2

/-- What is surveyed passes the checks of its plan on the same state. -/
theorem Chosen.checked (keyed : Keyed state) {candidate : PurgeCandidate}
    (chosen : Chosen state request candidate) :
    checkCandidate state request candidate = .ok () := by
  obtain ⟨row, listed, named, version, status⟩ := chosen.row
  obtain ⟨_, _, execution, _, stored⟩ := mem_executionsOf.mp listed
  have same : execution = candidate.jobExecutionId :=
    (keyed.executions execution row stored).symm.trans named
  subst same
  have held : state.holds.contains candidate.jobInstanceId = false := by
    rw [← Bool.not_eq_true, ExtTreeMap.contains_iff_mem]
    exact chosen.free
  have settled : (state.executionsOf candidate.jobInstanceId).all (·.status.isFinished) = true :=
    List.all_eq_true.mpr chosen.settled
  unfold checkCandidate
  rw [stored]
  simp only [require, bind, Except.bind, version, status, held, settled, ensure, decide_true,
    Bool.and_true, Bool.not_false, if_true]

/-- The executions of an instance are among those it lists. -/
private theorem executionsOf_sublist (keyed : Keyed state) {id : JobInstanceId}
    {listed : List JobExecutionId} (lists : state.jobExecutionsByInstance[id]? = some listed) :
    ((state.executionsOf id).map (·.id)).Sublist listed := by
  unfold MemoryState.executionsOf
  rw [lists, Option.getD_some]
  clear lists
  induction listed with
  | nil => exact .slnil
  | cons execution listed ih =>
    cases stored : state.jobExecutions[execution]? with
    | none =>
      rw [List.filterMap_cons_none stored]
      exact ih.cons _
    | some row =>
      rw [List.filterMap_cons_some stored, List.map_cons, keyed.executions execution row stored]
      exact ih.cons_cons _

private theorem instanceCandidates_nodup (keyed : Keyed state) (placed : Placed state)
    (entry : JobInstanceId × JobInstance) :
    ((instanceCandidates state request now entry).map (·.jobExecutionId)).Nodup := by
  unfold instanceCandidates
  dsimp only
  split
  · exact .nil
  · split
    · exact .nil
    · rw [List.map_map]
      change (((state.executionsOf entry.1).filter _).map (·.id)).Nodup
      cases lists : state.jobExecutionsByInstance[entry.1]? with
      | none =>
        unfold MemoryState.executionsOf
        rw [lists]
        exact .nil
      | some listed =>
        exact (placed.nodup _ listed lists).sublist
          ((List.filter_sublist.map _).trans (executionsOf_sublist keyed lists))

theorem survey_addressed (keyed : Keyed state) (placed : Placed state) :
    Addressed state (purgeEligible state request now) := by
  obtain ⟨order, moved, sub⟩ := purgeEligible_sublist state request now
  have found : ∀ {candidate : PurgeCandidate}, Chosen state request candidate →
      ∃ listed row, state.jobExecutionsByInstance[candidate.jobInstanceId]? = some listed ∧
        candidate.jobExecutionId ∈ listed ∧
        state.jobExecutions[candidate.jobExecutionId]? = some row := by
    intro candidate chosen
    obtain ⟨row, among, named, _⟩ := chosen.row
    obtain ⟨listed, lists, execution, member, stored⟩ := mem_executionsOf.mp among
    obtain rfl : execution = candidate.jobExecutionId :=
      (keyed.executions execution row stored).symm.trans named
    exact ⟨listed, row, lists, member, stored⟩
  refine ⟨?_, fun candidate member => ?_, fun candidate member => ?_⟩
  · refine List.Nodup.sublist (sub.map _) ((moved.map _).nodup_iff.mpr ?_)
    rw [List.map_flatMap, List.nodup_flatMap]
    refine ⟨fun entry _ => instanceCandidates_nodup keyed placed entry, ?_⟩
    have keys : (state.instancesById.toList.map Prod.fst).Nodup := by
      rw [ExtTreeMap.map_fst_toList_eq_keys]
      exact ExtTreeMap.nodup_keys
    refine (List.pairwise_map.mp keys).imp ?_
    -- an execution is of one instance only
    intro entry other different
    refine List.disjoint_left.mpr fun execution here there => ?_
    obtain ⟨candidate, among, rfl⟩ := List.mem_map.mp here
    obtain ⟨candidate', among', same⟩ := List.mem_map.mp there
    obtain ⟨owner, chosen⟩ := mem_instanceCandidates among
    obtain ⟨owner', chosen'⟩ := mem_instanceCandidates among'
    obtain ⟨listed, row, lists, member, stored⟩ := found chosen
    obtain ⟨listed', row', lists', member', stored'⟩ := found chosen'
    rw [same, stored] at stored'
    obtain rfl := Option.some.inj stored'
    have owned := placed.owned _ listed lists _ member row stored
    have owned' := placed.owned _ listed' lists' _ (same ▸ member') row stored
    exact different (owner.symm.trans (owned.symm.trans (owned'.trans owner')))
  · obtain ⟨_, row, _, _, stored⟩ := found (chosen_of_mem member)
    exact mem_of_lookup stored
  · obtain ⟨listed, _, lists, among, _⟩ := found (chosen_of_mem member)
    exact ⟨listed, lists, among⟩

end Survey

section Main

/-- The rows that are gone, table by table, are as many as counted. -/
structure CountsTaken (counts : PurgeCounts) (before after : MemoryState) : Prop where
  flowDecisions : after.flowDecisions.size + counts.flowDecisions = before.flowDecisions.size
  recoveryDecisions : total List.length after.recoveryDecisions + counts.recoveryDecisions =
    total List.length before.recoveryDecisions
  operatorRequests :
    after.operatorRequests.size + counts.operatorRequests = before.operatorRequests.size
  stepPartitions : after.stepPartitions.size + counts.stepPartitions = before.stepPartitions.size
  stepExecutions : after.stepExecutions.size + counts.stepExecutions = before.stepExecutions.size
  jobExecutions : after.jobExecutions.size + counts.jobExecutions = before.jobExecutions.size
  jobInstances : after.instancesById.size + counts.jobInstances = before.instancesById.size

private theorem counts_taken {candidates : List PurgeCandidate} (filed : Filed state.core)
    (planned : Planned state.plans) (placed : Placed state)
    (addressed : Addressed state candidates) :
    CountsTaken (purgeCounts state candidates) state (purged state candidates) := by
  obtain ⟨decisions, recoveries, requests, partitions, steps, rows⟩ :=
    candidates_taken filed planned addressed.distinct addressed.stored
  have others {Table : Type} (table : MemoryState → Table) := congrArg table
    (purgeInstances_kept (dedupNeighbours (candidates.map PurgeCandidate.jobInstanceId))
      (candidates.foldl purgeCandidate state))
  refine ⟨?_, ?_, ?_, ?_, ?_, ?_, instances_taken placed addressed⟩
  · unfold purged
    rw [others (·.flowDecisions)]
    exact decisions
  · unfold purged
    rw [others (·.recoveryDecisions)]
    exact recoveries
  · unfold purged
    rw [others (·.operatorRequests)]
    exact requests
  · unfold purged
    rw [others (·.stepPartitions)]
    exact partitions
  · unfold purged
    rw [others (·.stepExecutions)]
    exact steps
  · unfold purged
    rw [others (·.jobExecutions), ← rows]
    exact congrArg _ (List.length_map _).symm

/-- The plan of a survey on the state that was surveyed: it is refused when it would orphan a
fork, and otherwise takes from every table what the survey counted. -/
structure AppliesAsSurveyed (state : MemoryState) (request : PurgePlanRequest)
    (now : SystemTime) : Prop where
  applies : applyPurge (.new request (purgeSurvey state request now)) state =
    if (purgeSurvey state request now).candidates.any (forkOrphaned state) then
      .error .retentionPlanStale
    else .ok ((purgeSurvey state request now).counts,
      purged state (purgeSurvey state request now).candidates)
  counted : CountsTaken (purgeSurvey state request now).counts state
    (purged state (purgeSurvey state request now).candidates)

private theorem checks_pass (state : MemoryState) {α : Type}
    {check : α → Except RepositoryError Unit} {values : List α}
    (passed : ∀ value ∈ values, check value = .ok ()) :
    (values.forM fun value => liftM (check value) : StagedM Unit) state = .ok ((), state) := by
  induction values with
  | nil => rfl
  | cons value values ih =>
    refine bind_yields.mpr ⟨(), state, ?_, ih fun other member =>
      passed other (List.mem_cons_of_mem _ member)⟩
    exact lift_yields.mpr ⟨passed value List.mem_cons_self, rfl⟩

theorem applyPurge_checked {plan : PurgePlan} (checked : ∀ candidate ∈ plan.candidates,
    checkCandidate state plan.request candidate = .ok ()) :
    applyPurge plan state =
      if plan.candidates.any (forkOrphaned state) then .error .retentionPlanStale
      else .ok (purgeCounts state plan.candidates, purged state plan.candidates) := by
  have passes := checks_pass state checked
  unfold applyPurge
  change ((plan.candidates.forM fun candidate =>
    liftM (checkCandidate state plan.request candidate) : StagedM Unit) state >>= fun answer => _) = _
  rw [passes]
  cases plan.candidates.any (forkOrphaned state) <;> rfl

private theorem applies_as_surveyed (keyed : Keyed state) (filed : Filed state.core)
    (planned : Planned state.plans) (placed : Placed state) (request : PurgePlanRequest)
    (now : SystemTime) : AppliesAsSurveyed state request now :=
  ⟨applyPurge_checked fun _ member => (chosen_of_mem member).checked keyed,
    counts_taken filed planned placed (survey_addressed keyed placed)⟩

/-- Where the generator hands out no identifier twice, executions are placed. -/
theorem placed_committed (reader : DefinitionReader) (events : List Event)
    (once : (events.flatMap Event.ids).Nodup) :
    Placed (World.new.run reader events).committed := by
  obtain ⟨_, drawn, among, run⟩ := (Journaled.run_follows reader events).draws
  have apart := (once.sublist (Journaled.ordered_run reader events).committed).sublist among
  generalize (World.new.run reader events).committed = state at run
  have sound : Sound state.ledger := sound_empty.run run
  have numbered : Numbered (Used (fun _ => False) drawn) state.ledger :=
    numbered_empty.run sound_empty run (fun _ _ seen => seen) apart
  refine ⟨fun id => ?_, numbered.nodup, fun owner listed lists id member row stored => ?_⟩
  · have listed := sound.listed id
    change state.jobExecutionsByInstance[id]? = none ↔
      (state.instancesById[id]?).map (·.key) = none at listed
    rw [Option.map_eq_none_iff, ← not_mem_iff_lookup, ← not_mem_iff_lookup] at listed
    exact not_iff_not.mp listed
  · exact numbered.owned owner listed lists id member _ (record_ledger stored)

/-- A surveyed plan applies to the state it was surveyed on unless it would orphan a fork, and
its counts are exact. -/
theorem surveyed_plan_applies (reader : DefinitionReader) (events : List Event)
    (request : PurgePlanRequest) (now : SystemTime) (once : (events.flatMap Event.ids).Nodup) :
    AppliesAsSurveyed (World.new.run reader events).committed request now := by
  have follows := Journaled.run_follows reader events
  exact applies_as_surveyed follows.filed.1 follows.filed.2 follows.planned
    (placed_committed reader events once) request now

private theorem single_finished {status : BatchStatus} (finished : status.isFinished = true) :
    ∀ other : BatchStatus, other ∈ (ExtTreeSet.empty.insert status : ExtTreeSet BatchStatus) →
      other.isFinished = true := by
  intro other member
  have same : status = other := by simpa using member
  exact same ▸ finished

private theorem single_some {status : BatchStatus} :
    (ExtTreeSet.empty.insert status : ExtTreeSet BatchStatus) ≠ ∅ := by
  simp

private theorem ten_in_batch : 0 < 10 ∧ 10 ≤ maxPurgeBatch := by decide

/-- Purges nightly runs of one status after an hour. -/
def purgeNightly (status : BatchStatus) (finished : status.isFinished = true) :
    PurgePlanRequest where
  jobName := ⟨"nightly", Eq.refl true⟩
  statuses := ⟨ExtTreeSet.empty.insert status, single_finished finished, single_some⟩
  minimumAge := minPurgeAge
  batch := ⟨10, ten_in_batch⟩
  aged := le_refl _

def purgeFailed : PurgePlanRequest := purgeNightly .failed (Eq.refl true)

/-- The run that failed goes with its instance. -/
theorem surveyed_plan_applies_failed :
    let state := (World.new.run blindReader firstFailed).committed
    AppliesAsSurveyed state purgeFailed (2 * 3600 * 10 ^ 9) ∧
      (purgeSurvey state purgeFailed (2 * 3600 * 10 ^ 9)).counts = ⟨0, 0, 0, 0, 0, 1, 1⟩ :=
  ⟨surveyed_plan_applies blindReader firstFailed purgeFailed _ (by decide +kernel),
    by decide +kernel⟩

end Main

end OxideBatch.Repository
