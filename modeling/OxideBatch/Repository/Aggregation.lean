import Mathlib
import OxideBatch.Repository.Partition

/-! The aggregation of a partition plan: the same for every order of its partitions, exactly
which plans it accepts, and what it returns for them. -/

namespace OxideBatch.Repository

open OxideBatch.Core OxideBatch.Plan

namespace ExecutionCounts

/-- Counts added up without a bound. -/
def plus (left right : ExecutionCounts) : ExecutionCounts :=
  ⟨left.read + right.read, left.processed + right.processed, left.written + right.written,
    left.filtered + right.filtered, left.committed + right.committed,
    left.rolledBack + right.rolledBack⟩

private theorem zero_plus (counts : ExecutionCounts) : zero.plus counts = counts := by
  simp [plus, zero]

theorem plus_assoc (first second third : ExecutionCounts) :
    (first.plus second).plus third = first.plus (second.plus third) := by
  simp [plus, Nat.add_assoc]

private theorem plus_left_comm (first second third : ExecutionCounts) :
    first.plus (second.plus third) = second.plus (first.plus third) := by
  simp [plus, Nat.add_left_comm]

end ExecutionCounts

/-- The exact sums of the counts of some partitions. -/
def sumCounts (partitions : List StepPartition) : ExecutionCounts :=
  partitions.foldr (fun partition sum => partition.counts.plus sum) .zero

private theorem sumCounts_append (front rest : List StepPartition) :
    sumCounts (front ++ rest) = (sumCounts front).plus (sumCounts rest) := by
  induction front with
  | nil => exact (ExecutionCounts.zero_plus _).symm
  | cons partition front ih =>
    rw [List.cons_append, sumCounts, List.foldr_cons, ← sumCounts, ih, ← ExecutionCounts.plus_assoc]
    rfl

private theorem sumCounts_perm (same : List.Perm left right) :
    sumCounts left = sumCounts right := by
  induction same with
  | nil => rfl
  | cons partition _ ih => exact congrArg partition.counts.plus ih
  | swap first second rest => exact ExecutionCounts.plus_left_comm _ _ _
  | trans _ _ ih ih' => exact ih.trans ih'

private theorem storable_iff (counts : ExecutionCounts) : storableCounts counts = true ↔
    counts.read < 2 ^ 63 ∧ counts.processed < 2 ^ 63 ∧ counts.written < 2 ^ 63 ∧
      counts.filtered < 2 ^ 63 ∧ counts.committed < 2 ^ 63 ∧ counts.rolledBack < 2 ^ 63 := by
  simp [storableCounts]

private theorem storable_of_plus (stored : storableCounts (left.plus right) = true) :
    storableCounts left = true := by
  rw [storable_iff] at stored ⊢
  simp only [ExecutionCounts.plus] at stored
  omega

/-- The checked sum is the exact one, or refused when it does not fit. -/
private theorem checkedSumCounts_eq (left right : ExecutionCounts) : checkedSumCounts left right =
    if storableCounts (left.plus right) then .ok (left.plus right) else .error .countExhausted := by
  by_cases stored : storableCounts (left.plus right) = true
  · have fits := (storable_iff _).mp stored
    simp only [ExecutionCounts.plus] at fits
    have words : ∀ first second : Nat, first + second < 2 ^ 63 →
        Core.checkedAdd first second = some (first + second) := fun first second small =>
      if_pos (Nat.lt_trans small (by decide))
    obtain ⟨read, processed, written, filtered, committed, rolledBack⟩ := fits
    rw [if_pos stored]
    unfold checkedSumCounts
    simp only [words _ _ read, words _ _ processed, words _ _ written, words _ _ filtered,
      words _ _ committed, words _ _ rolledBack, Option.bind_eq_bind, Option.bind_some,
      Option.pure_def]
    have kept : (some (left.plus right)).filter storableCounts = some (left.plus right) := by
      rw [Option.filter_some, if_pos stored]
    simp only [ExecutionCounts.plus] at kept ⊢
    rw [kept]
  · rw [if_neg stored]
    unfold checkedSumCounts
    dsimp only
    split
    · rename_i counts found
      obtain ⟨summed, fits⟩ := Option.filter_eq_some_iff.mp found
      simp only [Option.bind_eq_bind, Option.bind_eq_some_iff, Core.checkedAdd, Option.pure_def,
        Option.ite_none_right_eq_some, Option.some.injEq] at summed
      obtain ⟨_, ⟨_, rfl⟩, _, ⟨_, rfl⟩, _, ⟨_, rfl⟩, _, ⟨_, rfl⟩, _, ⟨_, rfl⟩, _, ⟨_, rfl⟩, rfl⟩ :=
        summed
      exact absurd fits stored
    · rfl

section Order

/-- Partitions whose keys grow along the list. -/
def KeysGrow (partitions : List StepPartition) : Prop :=
  partitions.Pairwise fun left right => left.key.value < right.key.value

private theorem key_eq_iff {left right : StepPartition} : left.key = right.key ↔
    left.key.value = right.key.value := by
  rw [PartitionKey.mk.injEq]

private theorem sortPartitions_perm (partitions : List StepPartition) :
    (sortPartitions partitions).Perm partitions :=
  List.perm_insertionSort _ _

private theorem sortPartitions_sorted (partitions : List StepPartition) :
    (sortPartitions partitions).Pairwise fun left right => left.key.value ≤ right.key.value := by
  have total : Std.Total fun left right : StepPartition => left.key.value ≤ right.key.value :=
    ⟨fun left right => le_total left.key.value right.key.value⟩
  have transitive : IsTrans StepPartition fun left right => left.key.value ≤ right.key.value :=
    ⟨fun _ _ _ first second => le_trans first second⟩
  exact List.pairwise_insertionSort _ _

/-- Whether two neighbours share their key. -/
def keyRepeats (ordered : List StepPartition) : Bool :=
  (ordered.zip ordered.tail).any fun pair => pair.1.key = pair.2.key

private theorem keyRepeats_cons (first second : StepPartition) (rest : List StepPartition) :
    keyRepeats (first :: second :: rest) =
      (decide (first.key = second.key) || keyRepeats (second :: rest)) := rfl

private theorem keysGrow_of_sorted (sorted : ordered.Pairwise fun left right : StepPartition =>
    left.key.value ≤ right.key.value) (distinct : keyRepeats ordered = false) :
    KeysGrow ordered := by
  induction ordered with
  | nil => exact .nil
  | cons first rest ih =>
    cases rest with
    | nil => exact List.pairwise_singleton _ _
    | cons second rest =>
      rw [keyRepeats_cons, Bool.or_eq_false_iff, decide_eq_false_iff_not, key_eq_iff] at distinct
      obtain ⟨below, sorted'⟩ := List.pairwise_cons.mp sorted
      have grow := ih sorted' distinct.2
      have strict : first.key.value < second.key.value :=
        lt_of_le_of_ne (below second List.mem_cons_self) distinct.1
      refine List.pairwise_cons.mpr ⟨fun other member => ?_, grow⟩
      rcases List.mem_cons.mp member with rfl | later
      · exact strict
      · exact strict.trans ((List.pairwise_cons.mp grow).1 other later)

private theorem keyRepeats_of_nodup (distinct : (ordered.map (·.key)).Nodup) :
    keyRepeats ordered = false := by
  induction ordered with
  | nil => rfl
  | cons first rest ih =>
    cases rest with
    | nil => rfl
    | cons second rest =>
      rw [List.map_cons, List.nodup_cons] at distinct
      rw [keyRepeats_cons, ih distinct.2, Bool.or_false, decide_eq_false_iff_not]
      intro same
      exact distinct.1 (same ▸ List.mem_map_of_mem List.mem_cons_self)

theorem KeysGrow.nodup (grow : KeysGrow ordered) : (ordered.map (·.key)).Nodup := by
  refine List.pairwise_map.mpr (grow.imp fun below same => ?_)
  exact absurd (key_eq_iff.mp same) below.ne

/-- The duplicate check on the sorted plan finds every repeated key. -/
private theorem keyRepeats_sort (partitions : List StepPartition) :
    keyRepeats (sortPartitions partitions) = false ↔ (partitions.map (·.key)).Nodup := by
  have moved := (sortPartitions_perm partitions).map (·.key)
  constructor
  · intro distinct
    exact moved.nodup_iff.mp (keysGrow_of_sorted (sortPartitions_sorted _) distinct).nodup
  · intro distinct
    exact keyRepeats_of_nodup (moved.nodup_iff.mpr distinct)

private theorem keysGrow_sort (distinct : (partitions.map (·.key)).Nodup) :
    KeysGrow (sortPartitions partitions) :=
  keysGrow_of_sorted (sortPartitions_sorted _) ((keyRepeats_sort _).mpr distinct)

/-- Without repeated keys every order of the partitions sorts to the same one. -/
private theorem sortPartitions_unique (moved : List.Perm left right)
    (distinct : (left.map (·.key)).Nodup) : sortPartitions left = sortPartitions right := by
  have distinct' := (moved.map (·.key)).nodup_iff.mp distinct
  refine List.Perm.eq_of_pairwise (fun first second _ _ below above => ?_) (keysGrow_sort distinct)
    (keysGrow_sort distinct') ?_
  · exact absurd above (lt_asymm below)
  · exact ((sortPartitions_perm left).trans moved).trans (sortPartitions_perm right).symm

end Order

/-- A partition whose worker has ended. -/
def StepPartition.Ended (partition : StepPartition) : Prop :=
  partition.workerStepExecutionId.isSome = true ∧
    (partition.status = .completed ∨ partition.status = .failed ∨ partition.status = .stopped ∨
      partition.status = .unknown)

private theorem endsPartition_iff (status : BatchStatus) : endsPartition status = true ↔
    status = .completed ∨ status = .failed ∨ status = .stopped ∨ status = .unknown := by
  cases status <;> decide

/-- The more severe of two statuses, the first when they are equally severe. -/
def worse (held status : BatchStatus) : BatchStatus :=
  if partitionSeverity held < partitionSeverity status then status else held

private theorem aggregateStep_eq (held : BatchStatus × ExecutionCounts)
    (partition : StepPartition) :
    aggregateStep held partition =
      if partition.workerStepExecutionId.isNone || !endsPartition partition.status then
        .error (.incomplete partition.status)
      else if storableCounts (held.2.plus partition.counts) then
        .ok (worse held.1 partition.status, held.2.plus partition.counts)
      else .error .countExhausted := by
  unfold aggregateStep
  split
  · rfl
  · rw [checkedSumCounts_eq]
    by_cases below : partitionSeverity held.1 < partitionSeverity partition.status
    · simp only [worse, if_pos below]
      split <;> rfl
    · simp only [worse, if_neg below]
      split <;> rfl

private theorem aggregateStep_ok (held : BatchStatus × ExecutionCounts)
    (partition : StepPartition) :
    aggregateStep held partition = .ok result ↔ partition.Ended ∧
      storableCounts (held.2.plus partition.counts) = true ∧
      result = (worse held.1 partition.status, held.2.plus partition.counts) := by
  rw [aggregateStep_eq]
  unfold StepPartition.Ended
  rw [← endsPartition_iff]
  cases worker : partition.workerStepExecutionId <;> cases ended : endsPartition partition.status <;>
    cases stored : storableCounts (held.2.plus partition.counts) <;> simp [eq_comm]

/-- The loop accepts partitions that have all ended and whose sum fits. -/
private theorem aggregateLoop_ok {ordered : List StepPartition}
    (stored : storableCounts counts = true) :
    ordered.foldlM aggregateStep (status, counts) = .ok result ↔
      (∀ partition ∈ ordered, partition.Ended) ∧
      storableCounts (counts.plus (sumCounts ordered)) = true ∧
      result = (ordered.foldl (fun held partition => worse held partition.status) status,
        counts.plus (sumCounts ordered)) := by
  induction ordered generalizing status counts with
  | nil =>
    have sum : counts.plus (sumCounts []) = counts := rfl
    rw [List.foldlM_nil, sum]
    exact ⟨fun folded => ⟨nofun, stored, (Except.ok.inj folded).symm⟩,
      fun ⟨_, _, same⟩ => same ▸ rfl⟩
  | cons partition rest ih =>
    have whole : counts.plus (sumCounts (partition :: rest)) =
        (counts.plus partition.counts).plus (sumCounts rest) :=
      (ExecutionCounts.plus_assoc _ _ _).symm
    rw [List.foldlM_cons, whole, List.foldl_cons, List.forall_mem_cons]
    constructor
    · intro folded
      cases stepped : aggregateStep (status, counts) partition with
      | error error =>
        rw [stepped] at folded
        cases folded
      | ok held =>
        rw [stepped] at folded
        obtain ⟨ended, fits, rfl⟩ := (aggregateStep_ok _ _).mp stepped
        obtain ⟨others, total, rfl⟩ := (ih fits).mp folded
        exact ⟨⟨ended, others⟩, total, rfl⟩
    · rintro ⟨⟨ended, others⟩, total, rfl⟩
      have fits := storable_of_plus total
      rw [(aggregateStep_ok (status, counts) partition).mpr ⟨ended, fits, rfl⟩]
      exact (ih fits).mpr ⟨others, total, rfl⟩

/-- The severities rank the ended statuses. -/
private theorem partitionSeverity_lt {worse milder : BatchStatus}
    (outweighs : worse.Outweighs milder) :
    partitionSeverity milder < partitionSeverity worse := by
  cases worse <;> cases milder <;> first | decide | exact outweighs.elim

section Worst

variable {ordered : List StepPartition}

private theorem worse_left (held status : BatchStatus) :
    partitionSeverity held ≤ partitionSeverity (worse held status) := by
  unfold worse
  split
  · rename_i below
    exact below.le
  · exact Nat.le_refl _

private theorem worse_right (held status : BatchStatus) :
    partitionSeverity status ≤ partitionSeverity (worse held status) := by
  unfold worse
  split
  · exact Nat.le_refl _
  · rename_i above
    exact Nat.le_of_not_lt above

/-- The loop ends with the most severe status, one of those it met. -/
private theorem worst_spec (ordered : List StepPartition) (held : BatchStatus) :
    let worst := ordered.foldl (fun held partition => worse held partition.status) held
    partitionSeverity held ≤ partitionSeverity worst ∧
      (∀ partition ∈ ordered, partitionSeverity partition.status ≤ partitionSeverity worst) ∧
      (worst = held ∨ ∃ partition ∈ ordered, partition.status = worst) := by
  induction ordered generalizing held with
  | nil => exact ⟨Nat.le_refl _, nofun, .inl rfl⟩
  | cons partition rest ih =>
    obtain ⟨above, others, met⟩ := ih (worse held partition.status)
    refine ⟨(worse_left _ _).trans above, fun other member => ?_, ?_⟩
    · rcases List.mem_cons.mp member with rfl | later
      · exact (worse_right _ _).trans above
      · exact others other later
    · rcases met with kept | ⟨other, member, same⟩
      · rw [List.foldl_cons, kept]
        unfold worse
        split
        · exact .inr ⟨partition, List.mem_cons_self, rfl⟩
        · exact .inl rfl
      · exact .inr ⟨other, List.mem_cons_of_mem _ member, same⟩

private theorem completed_of_least
    (least : partitionSeverity status ≤ partitionSeverity BatchStatus.completed) :
    status = .completed := by
  cases status <;> first | rfl | exact absurd least (by decide)

/-- A plan has a partition of its most severe status. -/
private theorem worst_met (nonempty : ordered ≠ []) :
    ∃ partition ∈ ordered, partition.status =
      ordered.foldl (fun held partition => worse held partition.status) .completed := by
  obtain ⟨_, others, met⟩ := worst_spec ordered .completed
  rcases met with completed | found
  · obtain ⟨partition, member⟩ := List.exists_mem_of_ne_nil _ nonempty
    have least := others partition member
    rw [completed] at least ⊢
    exact ⟨partition, member, completed_of_least least⟩
  · exact found

end Worst

/-- What the aggregation makes of a plan in key order. -/
def aggregateOrdered (ordered : List StepPartition) :
    Except PartitionAggregationError PartitionAggregate := do
  let (status, counts) ← ordered.foldlM aggregateStep (.completed, .zero)
  match ordered.find? (·.status = status) with
  | none => .error (.incomplete status)
  | some selected =>
    match selected.workerStepExecutionId with
    | none => .error (.incomplete status)
    | some worker => pure ⟨status, selected.exitStatus, counts, worker⟩

private theorem aggregatePartitions_eq (partitions : List StepPartition) :
    aggregatePartitions partitions =
      if partitions.isEmpty then .error .emptyPlan
      else if maxPartitions < partitions.length then .error (.planTooLarge maxPartitions)
      else if keyRepeats (sortPartitions partitions) then .error .duplicateKey
      else aggregateOrdered (sortPartitions partitions) := rfl

private theorem aggregatePartitions_perm (moved : List.Perm left right) :
    aggregatePartitions left = aggregatePartitions right := by
  have empty : left.isEmpty = right.isEmpty := by
    rw [Bool.eq_iff_iff, List.isEmpty_iff_length_eq_zero, List.isEmpty_iff_length_eq_zero,
      moved.length_eq]
  have repeats : keyRepeats (sortPartitions left) = keyRepeats (sortPartitions right) := by
    rw [Bool.eq_iff_iff, ← not_iff_not, Bool.not_eq_true, Bool.not_eq_true, keyRepeats_sort,
      keyRepeats_sort, (moved.map (·.key)).nodup_iff]
  rw [aggregatePartitions_eq, aggregatePartitions_eq, empty, moved.length_eq, ← repeats]
  split
  · rfl
  · split
    · rfl
    · split
      · rfl
      · rename_i distinct
        rw [Bool.not_eq_true, keyRepeats_sort] at distinct
        rw [sortPartitions_unique moved distinct]

/-- Every counter fits an `i64`. -/
def ExecutionCounts.Storable (counts : ExecutionCounts) : Prop :=
  counts.read < 2 ^ 63 ∧ counts.processed < 2 ^ 63 ∧ counts.written < 2 ^ 63 ∧
    counts.filtered < 2 ^ 63 ∧ counts.committed < 2 ^ 63 ∧ counts.rolledBack < 2 ^ 63

/-- The plans that aggregate: bounded, with distinct keys and ended partitions, and sums that
fit along the keys. -/
structure Aggregable (partitions : List StepPartition) : Prop where
  nonempty : partitions ≠ []
  bounded : partitions.length ≤ maxPartitions
  distinct : (partitions.map (·.key)).Nodup
  ended : ∀ partition ∈ partitions, partition.Ended
  running : ∀ front, front <+: sortPartitions partitions → (sumCounts front).Storable

/-- What an aggregate is of its partitions. -/
structure Aggregates (partitions : List StepPartition) (aggregate : PartitionAggregate) : Prop where
  worst : ∀ partition ∈ partitions, ¬ partition.status.Outweighs aggregate.status
  selected : ∃ selected ∈ partitions, selected.status = aggregate.status ∧
    (∀ other ∈ partitions, other.status = aggregate.status →
      selected.key.value ≤ other.key.value) ∧
    aggregate.exitStatus = selected.exitStatus ∧
    selected.workerStepExecutionId = some aggregate.selectedWorker
  counts : aggregate.counts = sumCounts partitions

private theorem storable_zero : storableCounts .zero = true := by decide

/-- The sums fit along the keys exactly when the total fits. -/
private theorem running_iff (ordered : List StepPartition) :
    (∀ front, front <+: ordered → (sumCounts front).Storable) ↔
      storableCounts (sumCounts ordered) = true := by
  constructor
  · intro running
    exact (storable_iff _).mpr (running ordered (List.prefix_refl _))
  · rintro total front ⟨rest, rfl⟩
    rw [sumCounts_append] at total
    exact (storable_iff _).mp (storable_of_plus total)

/-- An ended plan in key order aggregates to its most severe status, as its first partition
with that status has it. -/
private theorem aggregateOrdered_ok {ordered : List StepPartition} (nonempty : ordered ≠ [])
    (grow : KeysGrow ordered) :
    ((∃ aggregate, aggregateOrdered ordered = .ok aggregate) ↔
      (∀ partition ∈ ordered, partition.Ended) ∧ storableCounts (sumCounts ordered) = true) ∧
    ∀ aggregate, aggregateOrdered ordered = .ok aggregate → Aggregates ordered aggregate := by
  let worst := ordered.foldl (fun held partition => worse held partition.status) .completed
  have loop : ∀ result, ordered.foldlM aggregateStep (.completed, .zero) = .ok result ↔
      (∀ partition ∈ ordered, partition.Ended) ∧ storableCounts (sumCounts ordered) = true ∧
        result = (worst, sumCounts ordered) := by
    intro result
    have loop : ordered.foldlM aggregateStep (.completed, .zero) = .ok result ↔ _ :=
      aggregateLoop_ok storable_zero
    rwa [ExecutionCounts.zero_plus] at loop
  have ends : (∀ partition ∈ ordered, partition.Ended) → storableCounts (sumCounts ordered) = true →
      ∃ aggregate, aggregateOrdered ordered = .ok aggregate ∧ Aggregates ordered aggregate := by
    intro ended stored
    have folded := (loop _).mpr ⟨ended, stored, rfl⟩
    obtain ⟨partition, member, status⟩ := worst_met nonempty
    have present : (ordered.find? (·.status = worst)).isSome = true :=
      List.find?_isSome.mpr ⟨partition, member, decide_eq_true status⟩
    obtain ⟨selected, found⟩ := Option.isSome_iff_exists.mp present
    have chosen := List.mem_of_find?_eq_some found
    obtain ⟨worker, assigned⟩ := Option.isSome_iff_exists.mp (ended selected chosen).1
    refine ⟨⟨worst, selected.exitStatus, sumCounts ordered, worker⟩, ?_, ?_⟩
    · unfold aggregateOrdered
      rw [folded]
      dsimp only [bind, Except.bind]
      rw [found]
      dsimp only
      rw [assigned]
      rfl
    · obtain ⟨suits, front, rest, shape, earlier⟩ := List.find?_eq_some_iff_append.mp found
      have milder : ∀ partition ∈ ordered, ¬ partition.status.Outweighs worst :=
        fun partition member outweighs =>
          absurd (partitionSeverity_lt outweighs)
            (Nat.not_lt.mpr ((worst_spec ordered .completed).2.1 partition member))
      refine ⟨milder, ⟨selected, chosen, by simpa using suits, fun other member same => ?_, rfl,
        assigned⟩, rfl⟩
      rw [shape] at member grow
      rcases List.mem_append.mp member with before | behind
      · have missed := earlier other before
        simp [same] at missed
      · rcases List.mem_cons.mp behind with rfl | later
        · exact le_refl _
        · have tail := (List.pairwise_append.mp grow).2.1
          exact ((List.pairwise_cons.mp tail).1 other later).le
  have accepted : ∀ aggregate, aggregateOrdered ordered = .ok aggregate →
      (∀ partition ∈ ordered, partition.Ended) ∧ storableCounts (sumCounts ordered) = true := by
    intro aggregate made
    unfold aggregateOrdered at made
    cases folded : ordered.foldlM aggregateStep (.completed, .zero) with
    | error error =>
      rw [folded] at made
      cases made
    | ok result =>
      obtain ⟨ended, stored, _⟩ := (loop result).mp folded
      exact ⟨ended, stored⟩
  refine ⟨⟨fun ⟨aggregate, made⟩ => accepted aggregate made, fun ⟨ended, stored⟩ => ?_⟩,
    fun aggregate made => ?_⟩
  · obtain ⟨aggregate, made, _⟩ := ends ended stored
    exact ⟨aggregate, made⟩
  · obtain ⟨ended, stored⟩ := accepted aggregate made
    obtain ⟨other, made', aggregates⟩ := ends ended stored
    cases made.symm.trans made'
    exact aggregates

theorem Aggregates.perm (aggregates : Aggregates left aggregate) (moved : List.Perm left right) :
    Aggregates right aggregate := by
  obtain ⟨worst, ⟨selected, member, status, least, exit, worker⟩, counts⟩ := aggregates
  exact ⟨fun partition member => worst partition (moved.mem_iff.mpr member),
    ⟨selected, moved.mem_iff.mp member, status,
      fun other member => least other (moved.mem_iff.mpr member), exit, worker⟩,
    counts.trans (sumCounts_perm moved)⟩

/-- The aggregation of a plan: one result for every order of the partitions, accepted exactly
as `Aggregable` says, and made of them as `Aggregates` says. -/
theorem aggregation_of_partitions (partitions : List StepPartition) :
    (∀ permuted, List.Perm permuted partitions →
      aggregatePartitions permuted = aggregatePartitions partitions) ∧
    ((∃ aggregate, aggregatePartitions partitions = .ok aggregate) ↔ Aggregable partitions) ∧
    ∀ aggregate, aggregatePartitions partitions = .ok aggregate →
      Aggregates partitions aggregate := by
  refine ⟨fun permuted moved => aggregatePartitions_perm moved, ?_⟩
  have sorted := sortPartitions_perm partitions
  by_cases checked : partitions ≠ [] ∧ partitions.length ≤ maxPartitions ∧
      (partitions.map (·.key)).Nodup
  · obtain ⟨nonempty, bounded, distinct⟩ := checked
    have filled : sortPartitions partitions ≠ [] := fun empty =>
      nonempty (List.Perm.nil_eq (empty ▸ sorted)).symm
    obtain ⟨accepts, gives⟩ := aggregateOrdered_ok filled (keysGrow_sort distinct)
    have passes : aggregatePartitions partitions = aggregateOrdered (sortPartitions partitions) := by
      rw [aggregatePartitions_eq, (keyRepeats_sort partitions).mpr distinct]
      simp [nonempty, Nat.not_lt.mpr bounded]
    rw [passes, accepts]
    refine ⟨?_, fun aggregate made => (gives aggregate made).perm sorted⟩
    constructor
    · rintro ⟨ended, stored⟩
      exact ⟨nonempty, bounded, distinct,
        fun partition member => ended partition (sorted.mem_iff.mpr member),
        (running_iff _).mpr stored⟩
    · intro aggregable
      exact ⟨fun partition member => aggregable.ended partition (sorted.mem_iff.mp member),
        (running_iff _).mp aggregable.running⟩
  · have fails : ∀ aggregate, aggregatePartitions partitions ≠ .ok aggregate := by
      intro aggregate made
      rw [aggregatePartitions_eq] at made
      split at made
      · cases made
      · rename_i nonempty
        split at made
        · cases made
        · rename_i bounded
          split at made
          · cases made
          · rename_i distinct
            rw [Bool.not_eq_true, keyRepeats_sort] at distinct
            exact checked ⟨by simpa using nonempty, Nat.le_of_not_lt bounded, distinct⟩
    refine ⟨⟨fun ⟨aggregate, made⟩ => absurd made (fails aggregate), fun aggregable => ?_⟩,
      fun aggregate made => absurd made (fails aggregate)⟩
    exact absurd ⟨aggregable.nonempty, aggregable.bounded, aggregable.distinct⟩ checked

section Mixed

/-- The keys of a plan, in order. -/
def planKey : Fin 5 → String
  | 0 => "alpha"
  | 1 => "beta"
  | 2 => "delta"
  | 3 => "gamma"
  | 4 => "zeta"

private theorem planKey_fits : ∀ index, planKey index ≠ "" ∧
    (planKey index).utf8ByteSize ≤ 128 := by
  decide

private theorem planIds_valid (index : Fin 5) : 0 < index.val + 1 ∧ index.val + 1 < u64Limit :=
  ⟨Nat.succ_pos _, by have := index.isLt; unfold u64Limit; omega⟩

def planId (kind : IdentifierKind) (index : Fin 5) : Id kind :=
  ⟨index.val + 1, (planIds_valid index).1, (planIds_valid index).2⟩

/-- A partition whose worker has ended in a status. -/
def endedPartition (index : Fin 5) (status : BatchStatus) (exitStatus : ExitStatus) :
    StepPartition :=
  { StepPartition.starting (planId .stepPartition index) (planId .stepExecution 0) 1
      ⟨planKey index, planKey_fits index⟩ ⟨⟨"partition.state", Eq.refl true⟩, 1, 2, []⟩ with
    workerStepExecutionId := some (planId .stepExecution index)
    status
    exitStatus
    counts := ⟨1, 2, 3, 4, 5, 6⟩ }

/-- Workers that ended in every way there is, two of them unknown, against the order of their
keys. -/
def mixedPlan : List StepPartition :=
  [endedPartition 4 .stopped ⟨"ZETA", Eq.refl true⟩,
    endedPartition 3 .unknown ⟨"GAMMA", Eq.refl true⟩,
    endedPartition 2 .completed ⟨"DELTA", Eq.refl true⟩,
    endedPartition 1 .unknown ⟨"BETA", Eq.refl true⟩,
    endedPartition 0 .failed ⟨"ALPHA", Eq.refl true⟩]

theorem mixed_plan_aggregates_alike :
    aggregatePartitions mixedPlan.reverse = aggregatePartitions mixedPlan ∧
      aggregatePartitions mixedPlan = .ok
        ⟨.unknown, ⟨"BETA", by decide⟩, ⟨5, 10, 15, 20, 25, 30⟩, 2⟩ :=
  ⟨(aggregation_of_partitions mixedPlan).1 _ mixedPlan.reverse_perm, by decide +kernel⟩

end Mixed

end OxideBatch.Repository
