import OxideBatch.Lib.Iterations
import OxideBatch.Repository.Instances
import OxideBatch.Repository.ManifestReader

/-! The iterations that an instance has accepted. A step keeps only its last record of a
repeat, and an attempt looks for its predecessor among the steps of all attempts. -/

namespace OxideBatch.Repository

open OxideBatch.Core OxideBatch.Plan Program
open Std (ExtTreeMap ExtTreeSet)
open Tables

variable {reader : DefinitionReader} {operation : Operation} {state state' : MemoryState}

section History

/-- The enclosing iterations of a lineage, for the repeats of one node. -/
def nodePath (nodeId : NodeId) (lineage : RepeatLineage) : List ((NodeId × RepeatId) × Nat) :=
  lineage.map fun entry => ((nodeId, entry.1), entry.2.val)

def iterations : Lib.Iterated RepeatExecution (NodeId × RepeatId) where
  path record := nodePath record.nodeId record.lineage
  key record := (record.nodeId, record.repeatId)
  ordinal record := record.ordinal.val
  final record := record.decision = .complete

/-- The iteration that an entry recorded; an exact replay records none. -/
def Entry.recorded (reader : DefinitionReader) (entry : Entry) : Option RepeatExecution :=
  match entry.operation with
  | .commitRepeatIteration request =>
    match commitRepeatIteration reader request entry.before with
    | .ok ((record, true), _) => some record
    | _ => none
  | _ => none

/-- The iterations accepted for an instance, the first of them first. -/
def acceptedIterations (reader : DefinitionReader) (instanceId : JobInstanceId)
    (entries : List Entry) : List RepeatExecution :=
  (entries.filterMap (·.recorded reader)).filter (·.jobInstanceId = instanceId)

private theorem nodePath_injective {nodeId : NodeId} {first second : RepeatLineage}
    (same : nodePath nodeId first = nodePath nodeId second) : first = second := by
  refine List.map_injective_iff.mpr (fun left right equal => ?_) same
  obtain ⟨equalId, equalOrdinal⟩ := Prod.mk.inj equal
  exact Prod.ext (Prod.mk.inj equalId).2 (Fin.ext equalOrdinal)

private theorem nodePath_keys {nodeId : NodeId} {lineage : RepeatLineage} :
    (nodePath nodeId lineage).map (·.1) = (lineage.map (·.1)).map (nodeId, ·) := by
  simp [nodePath]

private theorem nodePath_append {nodeId : NodeId} {lineage : RepeatLineage} {repeatId : RepeatId}
    {ordinal : RepeatOrdinal} :
    nodePath nodeId (lineage ++ [(repeatId, ordinal)]) =
      nodePath nodeId lineage ++ [((nodeId, repeatId), ordinal.val)] := by
  simp [nodePath]

/-- The records of one repeat in one lineage. -/
theorem own_iterations {history : List RepeatExecution} {nodeId : NodeId}
    {repeatId : RepeatId} {lineage : RepeatLineage} :
    iterations.own history (nodePath nodeId lineage) (nodeId, repeatId) =
      history.filter fun record =>
        record.nodeId = nodeId ∧ record.repeatId = repeatId ∧ record.lineage = lineage := by
  refine List.filter_congr fun record _ => ?_
  simp only [iterations, Prod.mk.injEq, decide_eq_decide]
  constructor
  · rintro ⟨path, rfl, rfl⟩
    exact ⟨rfl, rfl, nodePath_injective path⟩
  · rintro ⟨rfl, rfl, rfl⟩
    exact ⟨rfl, rfl, rfl⟩

end History

section Listing

/-- The steps of an instance, attempt by attempt. -/
def CoreTables.stepsOf (tables : CoreTables) (instanceId : JobInstanceId) : List StepExecutionId :=
  (tables.jobExecutionsByInstance[instanceId]?.getD []).flatMap fun id =>
    tables.stepExecutionsByJob[id]?.getD []

/-- The iteration of a repeat that a step of the node holds in the lineage. -/
def CoreTables.iterationAt (tables : CoreTables) (nodeId : NodeId) (repeatId : RepeatId)
    (lineage : RepeatLineage) (stepId : StepExecutionId) : Option RepeatExecution :=
  if tables.stepLogicalIds[stepId]? = some nodeId then
    tables.repeatExecutions[(stepId, repeatId)]?.filter (·.lineage = lineage)
  else none

def CoreTables.latestIteration (tables : CoreTables) (instanceId : JobInstanceId) (nodeId : NodeId)
    (repeatId : RepeatId) (lineage : RepeatLineage) : Option RepeatExecution :=
  (tables.stepsOf instanceId).reverse.findSome? (tables.iterationAt nodeId repeatId lineage)

theorem findSome?_flatMap {α β γ : Type} (values : List α) (inner : α → List β)
    (found : β → Option γ) :
    (values.flatMap inner).findSome? found = values.findSome? fun value =>
      (inner value).findSome? found := by
  induction values with
  | nil => rfl
  | cons value values ih =>
    rw [List.flatMap_cons, List.findSome?_append, ih, List.findSome?_cons]
    cases (inner value).findSome? found <;> rfl

/-- The search of the source, over all steps of the instance at once. -/
private theorem latestRepeatSnapshotInLineage_eq {instanceId : JobInstanceId} {nodeId : NodeId}
    {repeatId : RepeatId} {lineage : RepeatLineage}
    (listed : instanceId ∈ state.jobExecutionsByInstance) :
    latestRepeatSnapshotInLineage state instanceId nodeId repeatId lineage =
      .ok (state.core.latestIteration instanceId nodeId repeatId lineage) := by
  obtain ⟨executions, found⟩ := mem_iff_lookup.mp listed
  have steps : state.core.stepsOf instanceId = executions.flatMap fun id =>
      state.stepExecutionsByJob[id]?.getD [] := by
    change (state.jobExecutionsByInstance[instanceId]?.getD []).flatMap _ = _
    rw [found]
    rfl
  rw [latestRepeatSnapshotInLineage, found, CoreTables.latestIteration, steps,
    List.reverse_flatMap, findSome?_flatMap]
  rfl

theorem iterationAt_some {tables : CoreTables} {nodeId : NodeId} {repeatId : RepeatId}
    {lineage : RepeatLineage} {stepId : StepExecutionId} {record : RepeatExecution} :
    tables.iterationAt nodeId repeatId lineage stepId = some record ↔
      tables.stepLogicalIds[stepId]? = some nodeId ∧
        tables.repeatExecutions[(stepId, repeatId)]? = some record ∧ record.lineage = lineage := by
  unfold CoreTables.iterationAt
  split
  · rename_i logical
    simp [logical, Option.filter_eq_some_iff]
  · rename_i logical
    simp [logical]

/-- The latest iteration is the one of a step behind which no step holds another. -/
private theorem latestIteration_of_last {tables : CoreTables} {instanceId : JobInstanceId}
    {nodeId : NodeId}
    {repeatId : RepeatId} {lineage : RepeatLineage} {stepId : StepExecutionId}
    {record : RepeatExecution} {before after : List StepExecutionId}
    (split : tables.stepsOf instanceId = before ++ stepId :: after)
    (own : tables.iterationAt nodeId repeatId lineage stepId = some record)
    (others : ∀ later ∈ after, tables.iterationAt nodeId repeatId lineage later = none ∨
      tables.iterationAt nodeId repeatId lineage later = some record) :
    tables.latestIteration instanceId nodeId repeatId lineage = some record := by
  have behind : after.reverse.findSome? (tables.iterationAt nodeId repeatId lineage) = none ∨
      after.reverse.findSome? (tables.iterationAt nodeId repeatId lineage) = some record := by
    cases found : after.reverse.findSome? (tables.iterationAt nodeId repeatId lineage) with
    | none => exact .inl rfl
    | some other =>
      obtain ⟨later, member, held⟩ := List.exists_of_findSome?_eq_some found
      rcases others later (List.mem_reverse.mp member) with absent | same
      · rw [held] at absent
        cases absent
      · exact .inr (held.symm.trans same)
  rw [CoreTables.latestIteration, split, List.reverse_append, List.reverse_cons, List.append_assoc,
    List.findSome?_append, List.singleton_append, List.findSome?_cons, own]
  rcases behind with absent | same
  · rw [absent]
    rfl
  · rw [same]
    rfl

/-- A committed iteration changes what its step holds of its repeat. -/
private theorem iterationAt_insert {tables tables' : CoreTables} {request : RepeatCommitRequest}
    (nodes : tables'.stepLogicalIds = tables.stepLogicalIds)
    (inserted : tables'.repeatExecutions =
      tables.repeatExecutions.insert (request.stepExecutionId, request.repeatId) request)
    (nodeId : NodeId) (repeatId : RepeatId) (lineage : RepeatLineage) (stepId : StepExecutionId) :
    tables'.iterationAt nodeId repeatId lineage stepId =
      if request.stepExecutionId = stepId ∧ request.repeatId = repeatId then
        if tables.stepLogicalIds[stepId]? = some nodeId ∧ request.lineage = lineage then some request
        else none
      else tables.iterationAt nodeId repeatId lineage stepId := by
  simp only [CoreTables.iterationAt, nodes, inserted, lookup_insert, Prod.mk.injEq]
  by_cases here : request.stepExecutionId = stepId ∧ request.repeatId = repeatId
  · rw [if_pos here, if_pos here]
    by_cases logical : tables.stepLogicalIds[stepId]? = some nodeId
    · by_cases same : request.lineage = lineage
      · simp [logical, same, Option.filter]
      · simp [logical, same, Option.filter]
    · simp [logical]
  · rw [if_neg here, if_neg here]

end Listing

section Conditions

/-- No step of the instance behind the one of the request holds an iteration of its repeat
in its lineage. -/
def Foremost (tables : CoreTables) (request : RepeatCommitRequest) : Prop :=
  ∀ before after, tables.stepsOf request.jobInstanceId = before ++ request.stepExecutionId :: after →
    ∀ later ∈ after,
      tables.iterationAt request.nodeId request.repeatId request.lineage later = none

/-- A definition declares a repeat inside one list of enclosing repeats. -/
def DeclaresOnce (reader : DefinitionReader) (definition : DefinitionIdentity) : Prop :=
  ∀ first second : RepeatCommitRequest, first.repeatId = second.repeatId →
    (reader.repeatOwner definition first).isSome → (reader.repeatOwner definition second).isSome →
    first.lineage.map (·.1) = second.lineage.map (·.1)

/-- A reader of manifests finds a repeat where the manifest declares it. -/
theorem manifestReader_declaresOnce {parse : List UInt8 → Option Json}
    {token : NodeId → PartitionKey → String} {digest : JobParameters → Digest}
    {definition : DefinitionIdentity} {manifest : Json}
    (read : parse definition.canonicalManifest = some manifest) (one : OneChainEach manifest) :
    DeclaresOnce (manifestReader parse token digest) definition := by
  intro first second same declared declared'
  simp only [manifestReader, read, Option.bind_some, repeatRequestManifestOwner] at declared declared'
  obtain ⟨owner, found⟩ := Option.isSome_iff_exists.mp declared
  obtain ⟨owner', found'⟩ := Option.isSome_iff_exists.mp declared'
  obtain ⟨repeated, member, chain⟩ := visitOwner_chain manifest found
  obtain ⟨repeated', member', chain'⟩ := visitOwner_chain manifest found'
  rw [← same] at chain'
  have ids := one repeated member repeated' member' _ _ _ chain chain'
  have values : (first.lineage.map (·.1)).map Token.value =
      (second.lineage.map (·.1)).map Token.value := by
    rw [List.map_map, List.map_map]
    exact ids
  refine List.map_injective_iff.mpr (fun left right equal => ?_) values
  cases left
  cases right
  cases equal
  rfl

/-- The commit comes from the last step with the iteration, under a definition that
declares its repeats once. -/
structure InTurn (reader : DefinitionReader) (tables : CoreTables) (request : RepeatCommitRequest) :
    Prop where
  foremost : Foremost tables request
  once : ∀ step definition, tables.stepExecutions[request.stepExecutionId]? = some step →
    tables.executionDefinitions[step.jobExecutionId]? = some definition →
    DeclaresOnce reader definition

/-- Neither a purge nor an upgrade of the instance. -/
def Operation.leavesDefinition (instanceId : JobInstanceId) : Operation → Bool
  | .applyPurge _ => false
  | .createJobExecutionWithUpgrade id _ _ => id ≠ instanceId
  | _ => true

/-- The instance keeps its definition, and its iterations are committed in turn. -/
structure Orderly (reader : DefinitionReader) (instanceId : JobInstanceId) (entry : Entry) :
    Prop where
  kept : entry.operation.leavesDefinition instanceId = true
  inTurn : ∀ record, entry.recorded reader = some record → record.jobInstanceId = instanceId →
    InTurn reader entry.before.core record

end Conditions

section Checks

/-- What a request is checked against before anything is compared with it. -/
theorem validateRepeatRequest_ok {request : RepeatCommitRequest} :
    validateRepeatRequest reader state request = .ok () ↔
      ∃ step row definition owner, state.stepExecutions[request.stepExecutionId]? = some step ∧
        state.stepLogicalIds[request.stepExecutionId]? = some request.nodeId ∧
        state.jobExecutions[step.jobExecutionId]? = some row ∧
        row.jobInstanceId = request.jobInstanceId ∧
        state.executionDefinitions[step.jobExecutionId]? = some definition ∧
        (definition.manifestDigest = request.planFingerprint ∧ reader.readable definition = true) ∧
        reader.repeatOwner definition request = some owner ∧
        validateRepeatOwner reader state request owner = .ok () ∧
        validateRepeatLineage state request [] request.lineage = .ok () := by
  simp only [validateRepeatRequest, bind_ok, require_ok, ensure_ok, existsAndEq, and_true,
    true_and, Bool.and_eq_true, decide_eq_true_eq]
  constructor
  · rintro ⟨step, stored, _, logical, _, found, definition, defined, _, matched, owner, declared, _,
      owned, checked⟩
    obtain ⟨row, launched, same⟩ := instanceForExecution_ok found
    exact ⟨step, row, definition, owner, stored, logical, launched, same, defined, matched,
      declared, owned, checked⟩
  · rintro ⟨step, row, definition, owner, stored, logical, launched, same, defined, matched,
      declared, owned, checked⟩
    refine ⟨step, stored, (), logical, (), ?_, definition, defined, (), matched, owner, declared,
      (), owned, checked⟩
    rw [instanceForExecution, launched]
    exact congrArg Except.ok same

/-- A recorded iteration follows the one of its step, or the latest where that has none. -/
theorem commitRepeatIteration_follows {request : RepeatCommitRequest}
    (accepted : commitRepeatIteration reader request state = .ok ((request, true), state')) :
    validateRepeatRequest reader state request = .ok () ∧
    ((∃ existing, state.repeatExecutions[(request.stepExecutionId, request.repeatId)]? =
          some existing ∧ existing.lineage = request.lineage ∧ existing.decision ≠ .complete ∧
        existing.ordinal.checkedNext = some request.ordinal) ∨
      (∃ prior, latestRepeatSnapshotInLineage state request.jobInstanceId request.nodeId
          request.repeatId request.lineage = .ok prior ∧
        expectedOrdinal prior request = .ok request.ordinal)) := by
  simp only [commitRepeatIteration, bind_yields, get_yields, lift_yields, existsAndEq, and_true,
    true_and] at accepted
  obtain ⟨_, valid, accepted⟩ := accepted
  refine ⟨valid, ?_⟩
  cases held : state.repeatExecutions[(request.stepExecutionId, request.repeatId)]?.filter
      (·.lineage = request.lineage) with
  | some existing =>
    obtain ⟨found, same⟩ := Option.filter_eq_some_iff.mp held
    simp only [held] at accepted
    split at accepted
    · have replayed := (pure_yields.mp accepted).1
      cases replayed
    · simp only [bind_yields, lift_yields, ensure_ok, require_ok, existsAndEq, and_true,
        checkOrdinal, decide_eq_true_eq] at accepted
      obtain ⟨_, _, _, unfinished, _, next, _⟩ := accepted
      exact .inl ⟨existing, found, of_decide_eq_true same, unfinished, next⟩
  | none =>
    simp only [held, bind_yields, lift_yields, ensure_ok, existsAndEq, and_true,
      checkOrdinal, decide_eq_true_eq] at accepted
    obtain ⟨prior, searched, _, following, _⟩ := accepted
    exact .inr ⟨prior, searched, following⟩

private theorem checkedNext_some {ordinal following : RepeatOrdinal}
    (next : ordinal.checkedNext = some following) : following.val = ordinal.val + 1 := by
  unfold RepeatOrdinal.checkedNext at next
  split at next
  · rw [← Option.some.inj next]
  · cases next

variable {history : List RepeatExecution} {path : List ((NodeId × RepeatId) × Nat)}
  {key : NodeId × RepeatId}

/-- What follows the latest record of a path and key in the source. -/
private theorem next_of_latest {record : RepeatExecution} {ordinal : RepeatOrdinal}
    (latest : iterations.latest history path key = some record)
    (unfinished : record.decision ≠ .complete)
    (next : record.ordinal.checkedNext = some ordinal) :
    iterations.next history path key = some ordinal.val := by
  rw [Lib.Iterated.next, latest]
  simp [iterations, unfinished, checkedNext_some next]

private theorem expectedOrdinal_some {request : RepeatCommitRequest} {prior : RepeatExecution}
    {ordinal : RepeatOrdinal} :
    expectedOrdinal (some prior) request = .ok ordinal ↔
      (prior.planFingerprint = request.planFingerprint ∧
        prior.definitionNodeId = request.definitionNodeId) ∧
      prior.decision ≠ .complete ∧ prior.ordinal.checkedNext = some ordinal := by
  unfold expectedOrdinal
  by_cases fingerprint : prior.planFingerprint = request.planFingerprint
  · by_cases node : prior.definitionNodeId = request.definitionNodeId
    · by_cases finished : prior.decision = .complete
      · simp [fingerprint, node, finished]
      · simp [fingerprint, node, finished, require_ok]
    · simp [fingerprint, node]
  · simp [fingerprint]

private theorem next_of_expected {request : RepeatCommitRequest} {ordinal : RepeatOrdinal}
    (expected : expectedOrdinal (iterations.latest history path key) request = .ok ordinal) :
    iterations.next history path key = some ordinal.val := by
  cases latest : iterations.latest history path key with
  | none =>
    rw [latest] at expected
    cases expected
    rw [Lib.Iterated.next, latest]
    rfl
  | some prior =>
    rw [latest] at expected
    obtain ⟨_, unfinished, next⟩ := expectedOrdinal_some.mp expected
    exact next_of_latest latest unfinished next

/-- The search of the source finds the ordinal that follows in the history. -/
private theorem expected_of_next {request : RepeatCommitRequest} {ordinal : RepeatOrdinal}
    (following : iterations.next history path key = some ordinal.val)
    (ofDefinition : ∀ prior, iterations.latest history path key = some prior →
      prior.planFingerprint = request.planFingerprint ∧
        prior.definitionNodeId = request.definitionNodeId) :
    expectedOrdinal (iterations.latest history path key) request = .ok ordinal := by
  unfold Lib.Iterated.next at following
  cases latest : iterations.latest history path key with
  | none =>
    rw [latest] at following
    have zero : ordinal = .initial := Fin.ext (Option.some.inj following).symm
    rw [zero]
    rfl
  | some prior =>
    rw [latest] at following
    refine expectedOrdinal_some.mpr ⟨ofDefinition prior latest, ?_⟩
    by_cases finished : prior.decision = .complete
    · simp [iterations, finished] at following
    · have same : prior.ordinal.val + 1 = ordinal.val := by
        simpa [iterations, finished] using following
      refine ⟨finished, ?_⟩
      unfold RepeatOrdinal.checkedNext
      rw [dif_pos (by rw [same]; exact ordinal.isLt)]
      exact congrArg some (Fin.ext same)

private theorem child_some {lineage child : RepeatLineage} {id : RepeatId} {ordinal : RepeatOrdinal}
    (made : RepeatLineage.child lineage id ordinal = some child) :
    child = lineage ++ [(id, ordinal)] := by
  unfold RepeatLineage.child at made
  split at made
  · cases made
  · exact (Option.some.inj made).symm

end Checks

section Recorded

/-- A record of the history, where the step that committed it keeps it. -/
structure Stands (reader : DefinitionReader) (history : List RepeatExecution) (tables : CoreTables)
    (key : StepExecutionId × RepeatId) (record : RepeatExecution) (step : StepExecution) : Prop where
  member : record ∈ history
  key : key = (record.stepExecutionId, record.repeatId)
  node : tables.stepLogicalIds[record.stepExecutionId]? = some record.nodeId
  definition : ∃ definition, tables.executionDefinitions[step.jobExecutionId]? = some definition ∧
    (definition.manifestDigest = record.planFingerprint ∧ reader.readable definition = true) ∧
    (reader.repeatOwner definition record).isSome = true

/-- The enclosing repeats of a request are of its definition, each inside the one before. -/
def Enclosed (history : List RepeatExecution) (request : RepeatCommitRequest) :
    RepeatLineage → List (RepeatId × RepeatOrdinal) → Prop
  | _, [] => True
  | front, (id, ordinal) :: lineage =>
    (∀ prior, iterations.latest history (nodePath request.nodeId front) (request.nodeId, id) =
      some prior → prior.planFingerprint = request.planFingerprint ∧
        prior.definitionNodeId = request.definitionNodeId) ∧
    RepeatLineage.child front id ordinal = some (front ++ [(id, ordinal)]) ∧
    Enclosed history request (front ++ [(id, ordinal)]) lineage

/-- The tables behind the history of an instance: in every lineage that is open, the latest
iteration that the steps hold is the latest of the history. -/
structure Recorded (reader : DefinitionReader) (instanceId : JobInstanceId)
    (history : List RepeatExecution) (tables : CoreTables) : Prop where
  indexed : Indexed tables
  steps : Listed StepExecution.jobExecutionId tables.stepExecutions tables.stepExecutionsByJob
  owned : ∀ (id : StepExecutionId) (row : StepExecution), tables.stepExecutions[id]? = some row →
    row.jobExecutionId ∈ tables.jobExecutions
  seeds : ∀ (key : JobExecutionId × NodeId) (seed : MemoryUpgradeNodeSeed),
    tables.upgradeSeeds[key]? = some seed →
    ∃ row, tables.jobExecutions[key.1]? = some row ∧ row.jobInstanceId ≠ instanceId
  stored : ∀ (key : StepExecutionId × RepeatId) (record : RepeatExecution),
    tables.repeatExecutions[key]? = some record →
    ∃ step row, tables.stepExecutions[key.1]? = some step ∧
      tables.jobExecutions[step.jobExecutionId]? = some row ∧
      (row.jobInstanceId = instanceId → Stands reader history tables key record step)
  orderly : iterations.Orderly history
  ofInstance : ∀ record ∈ history, record.jobInstanceId = instanceId
  latest : ∀ nodeId repeatId lineage, iterations.Open history (nodePath nodeId lineage) →
    tables.latestIteration instanceId nodeId repeatId lineage =
      iterations.latest history (nodePath nodeId lineage) (nodeId, repeatId)
  enclosed : ∀ record ∈ history, iterations.Open history (nodePath record.nodeId record.lineage) →
    Enclosed history record [] record.lineage

variable {instanceId : JobInstanceId} {history : List RepeatExecution} {tables tables' : CoreTables}

private theorem recorded_empty (reader : DefinitionReader) (instanceId : JobInstanceId) :
    Recorded reader instanceId [] MemoryState.empty.core where
  indexed := indexed_empty
  steps := Listed.empty
  owned _ _ found := by simp [MemoryState.core, MemoryState.empty] at found
  seeds _ _ found := by simp [MemoryState.core, MemoryState.empty] at found
  stored _ _ found := by simp [MemoryState.core, MemoryState.empty] at found
  orderly := Lib.throughout_nil
  ofInstance _ member := by cases member
  latest _ _ _ _ := by
    simp [CoreTables.latestIteration, CoreTables.stepsOf, MemoryState.core, MemoryState.empty,
      Lib.Iterated.latest, Lib.Iterated.own]
  enclosed _ member := by cases member

/-- A step that is listed for an instance is of an execution of the instance. -/
theorem of_listed (indexed : Indexed tables)
    (steps : Listed StepExecution.jobExecutionId tables.stepExecutions tables.stepExecutionsByJob)
    {stepId : StepExecutionId} (listed : stepId ∈ tables.stepsOf instanceId) :
    ∃ step row, tables.stepExecutions[stepId]? = some step ∧
      tables.jobExecutions[step.jobExecutionId]? = some row ∧ row.jobInstanceId = instanceId := by
  obtain ⟨jobId, ofInstance, ofJob⟩ := List.mem_flatMap.mp listed
  cases jobs : tables.jobExecutionsByInstance[instanceId]? with
  | none => simp [jobs] at ofInstance
  | some executions =>
    rw [jobs] at ofInstance
    obtain ⟨row, launched, same⟩ := indexed.listed.stored instanceId executions jobs jobId ofInstance
    cases held : tables.stepExecutionsByJob[jobId]? with
    | none => simp [held] at ofJob
    | some ids =>
      rw [held] at ofJob
      obtain ⟨step, stored, rfl⟩ := steps.stored jobId ids held stepId ofJob
      exact ⟨step, row, stored, launched, same⟩

/-- A step of an execution of the instance is listed. -/
theorem Recorded.listed (recorded : Recorded reader instanceId history tables)
    {stepId : StepExecutionId} {step : StepExecution} {row : JobExecution}
    (stored : tables.stepExecutions[stepId]? = some step)
    (launched : tables.jobExecutions[step.jobExecutionId]? = some row)
    (same : row.jobInstanceId = instanceId) : stepId ∈ tables.stepsOf instanceId := by
  obtain ⟨executions, jobs, ofInstance⟩ := recorded.indexed.listed.complete _ row launched
  obtain ⟨steps, held, ofJob⟩ := recorded.steps.complete stepId step stored
  refine List.mem_flatMap.mpr ⟨step.jobExecutionId, ?_, ?_⟩
  · rw [← same, jobs]
    exact ofInstance
  · rw [held]
    exact ofJob

/-- What a step of the instance holds is of the history. -/
theorem Recorded.stands (recorded : Recorded reader instanceId history tables)
    {stepId : StepExecutionId} (listed : stepId ∈ tables.stepsOf instanceId)
    {repeatId : RepeatId} {record : RepeatExecution}
    (held : tables.repeatExecutions[(stepId, repeatId)]? = some record) :
    ∃ step, tables.stepExecutions[stepId]? = some step ∧
      Stands reader history tables (stepId, repeatId) record step := by
  obtain ⟨step, row, stored, launched, same⟩ := of_listed recorded.indexed recorded.steps listed
  obtain ⟨step', row', stored', launched', stands⟩ := recorded.stored _ _ held
  rw [stored] at stored'
  cases stored'
  rw [launched] at launched'
  cases launched'
  exact ⟨step, stored, stands same⟩

/-- Where the steps of the instance hold nothing of a path, neither does the history. -/
theorem Recorded.latest_of_absent (recorded : Recorded reader instanceId history tables)
    {nodeId : NodeId} {repeatId : RepeatId} {lineage : RepeatLineage}
    (absent : ∀ record ∈ history, nodePath record.nodeId record.lineage ≠ nodePath nodeId lineage) :
    tables.latestIteration instanceId nodeId repeatId lineage = none := by
  rw [CoreTables.latestIteration, List.findSome?_eq_none_iff]
  intro stepId listed
  cases found : tables.iterationAt nodeId repeatId lineage stepId with
  | none => rfl
  | some record =>
    obtain ⟨logical, held, same⟩ := iterationAt_some.mp found
    obtain ⟨_, _, stands⟩ := recorded.stands (List.mem_reverse.mp listed) held
    have sameStep : stepId = record.stepExecutionId := congrArg Prod.fst stands.key
    have sameNode : record.nodeId = nodeId := by
      rw [sameStep, stands.node] at logical
      exact Option.some.inj logical
    exact absurd (by rw [sameNode, same]) (absent record stands.member)

end Recorded

section Growth

variable {instanceId : JobInstanceId} {history : List RepeatExecution} {tables tables' : CoreTables}

/-- A change that adds steps and executions, and iterations of other instances only. -/
structure Grown (instanceId : JobInstanceId) (tables tables' : CoreTables) : Prop where
  jobs : ∀ (id : JobExecutionId) (row : JobExecution), tables.jobExecutions[id]? = some row →
    ∃ row', tables'.jobExecutions[id]? = some row' ∧ row'.jobInstanceId = row.jobInstanceId
  steps : ∀ (id : StepExecutionId) (row : StepExecution), tables.stepExecutions[id]? = some row →
    ∃ row', tables'.stepExecutions[id]? = some row' ∧ row'.jobExecutionId = row.jobExecutionId
  logical : ∀ id ∈ tables.stepExecutions, tables'.stepLogicalIds[id]? = tables.stepLogicalIds[id]?
  definitions : ∀ id ∈ tables.jobExecutions,
    tables'.executionDefinitions[id]? = tables.executionDefinitions[id]?
  kept : ∀ key : StepExecutionId × RepeatId, key.1 ∈ tables.stepsOf instanceId →
    tables'.repeatExecutions[key]? = tables.repeatExecutions[key]?
  others : ∀ (key : StepExecutionId × RepeatId) (record : RepeatExecution),
    tables'.repeatExecutions[key]? = some record → tables.repeatExecutions[key]? = some record ∨
      ∃ step row, tables'.stepExecutions[key.1]? = some step ∧
        tables'.jobExecutions[step.jobExecutionId]? = some row ∧ row.jobInstanceId ≠ instanceId
  listing : (tables'.stepsOf instanceId).filter (· ∈ tables.stepExecutions) =
    tables.stepsOf instanceId

theorem findSome?_filter {α β : Type} {values : List α} {keep : α → Bool} {found found' : α → Option β}
    (same : ∀ value ∈ values, keep value = true → found' value = found value)
    (absent : ∀ value ∈ values, keep value = false → found' value = none) :
    values.findSome? found' = (values.filter keep).findSome? found := by
  induction values with
  | nil => rfl
  | cons value values ih =>
    have rest := ih (fun other member => same other (List.mem_cons_of_mem _ member))
      fun other member => absent other (List.mem_cons_of_mem _ member)
    cases kept : keep value with
    | true =>
      rw [List.filter_cons_of_pos kept, List.findSome?_cons, List.findSome?_cons,
        same value List.mem_cons_self kept, rest]
    | false =>
      rw [List.filter_cons_of_neg (by simp [kept]), List.findSome?_cons,
        absent value List.mem_cons_self kept, rest]

theorem Recorded.grown (recorded : Recorded reader instanceId history tables)
    (grown : Grown instanceId tables tables') (indexed : Indexed tables')
    (steps : Listed StepExecution.jobExecutionId tables'.stepExecutions tables'.stepExecutionsByJob)
    (owned : ∀ (id : StepExecutionId) (row : StepExecution), tables'.stepExecutions[id]? = some row →
      row.jobExecutionId ∈ tables'.jobExecutions)
    (seeds : ∀ (key : JobExecutionId × NodeId) (seed : MemoryUpgradeNodeSeed),
      tables'.upgradeSeeds[key]? = some seed →
      ∃ row, tables'.jobExecutions[key.1]? = some row ∧ row.jobInstanceId ≠ instanceId) :
    Recorded reader instanceId history tables' := by
  refine ⟨indexed, steps, owned, seeds, ?_, recorded.orderly, recorded.ofInstance, ?_,
    recorded.enclosed⟩
  · intro key record found
    rcases grown.others key record found with before | ⟨step, row, stored, launched, other⟩
    · obtain ⟨step, row, stored, launched, stands⟩ := recorded.stored key record before
      obtain ⟨step', stored', sameJob⟩ := grown.steps _ _ stored
      obtain ⟨row', launched', sameInstance⟩ := grown.jobs _ _ launched
      refine ⟨step', row', stored', by rw [sameJob]; exact launched', fun same => ?_⟩
      obtain ⟨member, isKey, node, definition, defined, matched⟩ := stands (sameInstance ▸ same)
      have sameStep : key.1 = record.stepExecutionId := congrArg Prod.fst isKey
      refine ⟨member, isKey, ?_, definition, ?_, matched⟩
      · rw [grown.logical _ (sameStep ▸ mem_of_lookup stored)]
        exact node
      · rw [sameJob, grown.definitions _ (mem_of_lookup launched)]
        exact defined
    · exact ⟨step, row, stored, launched, fun same => absurd same other⟩
  · intro nodeId repeatId lineage opened
    rw [← recorded.latest nodeId repeatId lineage opened, CoreTables.latestIteration,
      CoreTables.latestIteration, ← grown.listing, ← List.filter_reverse]
    apply findSome?_filter
    · intro stepId member known
      have listed : stepId ∈ tables.stepsOf instanceId := by
        rw [← grown.listing]
        exact List.mem_filter.mpr ⟨List.mem_reverse.mp member, known⟩
      rw [CoreTables.iterationAt, CoreTables.iterationAt,
        grown.logical _ (by simpa using known), grown.kept (stepId, repeatId) listed]
    · intro stepId member unknown
      have unknown : stepId ∉ tables.stepExecutions := by simpa using unknown
      cases held : tables'.iterationAt nodeId repeatId lineage stepId with
      | none => rfl
      | some record =>
        obtain ⟨_, found, _⟩ := iterationAt_some.mp held
        rcases grown.others _ _ found with before | ⟨step, row, stored, launched, other⟩
        · obtain ⟨step, _, stored, _⟩ := recorded.stored _ _ before
          exact absurd (mem_of_lookup stored) unknown
        · obtain ⟨step', row', stored', launched', same⟩ :=
            of_listed indexed steps (List.mem_reverse.mp member)
          rw [stored] at stored'
          cases stored'
          rw [launched] at launched'
          cases launched'
          exact absurd same other

/-- The steps that are listed are all there. -/
theorem Recorded.listing (recorded : Recorded reader instanceId history tables) :
    (tables.stepsOf instanceId).filter (· ∈ tables.stepExecutions) = tables.stepsOf instanceId := by
  rw [List.filter_eq_self]
  intro stepId member
  obtain ⟨step, _, stored, _⟩ := of_listed recorded.indexed recorded.steps member
  simpa using mem_of_lookup stored

/-- Tables that differ elsewhere only. -/
theorem Recorded.elsewhere (recorded : Recorded reader instanceId history tables)
    (indexed : Indexed tables')
    (jobs : tables'.jobExecutions = tables.jobExecutions)
    (lists : tables'.jobExecutionsByInstance = tables.jobExecutionsByInstance)
    (rows : tables'.stepExecutions = tables.stepExecutions)
    (steps : tables'.stepExecutionsByJob = tables.stepExecutionsByJob)
    (logical : tables'.stepLogicalIds = tables.stepLogicalIds)
    (repeats : tables'.repeatExecutions = tables.repeatExecutions)
    (definitions : tables'.executionDefinitions = tables.executionDefinitions)
    (seeds : tables'.upgradeSeeds = tables.upgradeSeeds) :
    Recorded reader instanceId history tables' := by
  have listing : tables'.stepsOf instanceId = tables.stepsOf instanceId := by
    rw [CoreTables.stepsOf, CoreTables.stepsOf, lists, steps]
  refine recorded.grown ⟨?_, ?_, ?_, ?_, ?_, ?_, ?_⟩ indexed ?_ ?_ ?_
  · exact fun id row found => ⟨row, jobs ▸ found, rfl⟩
  · exact fun id row found => ⟨row, rows ▸ found, rfl⟩
  · exact fun id _ => by rw [logical]
  · exact fun id _ => by rw [definitions]
  · exact fun key _ => by rw [repeats]
  · exact fun key record found => .inl (repeats ▸ found)
  · rw [listing]
    exact recorded.listing
  · rw [rows, steps]
    exact recorded.steps
  · rw [rows, jobs]
    exact recorded.owned
  · rw [seeds, jobs]
    exact recorded.seeds

theorem Recorded.entered (recorded : Recorded reader instanceId history tables)
    {added : JobInstance} (free : tables.instancesByKey[added.key]? = none)
    (unused : added.id ∉ tables.instancesById) :
    Recorded reader instanceId history { tables with
      instancesByKey := tables.instancesByKey.insert added.key added.id
      instancesById := tables.instancesById.insert added.id added
      jobExecutionsByInstance := tables.jobExecutionsByInstance.insert added.id [] } := by
  have unlisted : tables.jobExecutionsByInstance[added.id]? = none :=
    not_mem_iff_lookup.mp fun member => unused ((recorded.indexed.lists added.id).mp member)
  have listing : (tables.jobExecutionsByInstance.insert added.id [])[instanceId]?.getD [] =
      tables.jobExecutionsByInstance[instanceId]?.getD [] := by
    rw [lookup_insert]
    split
    · rename_i same
      rw [← same, unlisted]
      rfl
    · rfl
  refine recorded.grown ⟨?_, ?_, ?_, ?_, ?_, ?_, ?_⟩ (recorded.indexed.entered free unused)
    recorded.steps recorded.owned recorded.seeds
  · exact fun id row found => ⟨row, found, rfl⟩
  · exact fun id row found => ⟨row, found, rfl⟩
  · exact fun id _ => rfl
  · exact fun id _ => rfl
  · exact fun key _ => rfl
  · exact fun key record found => .inl found
  · change (((tables.jobExecutionsByInstance.insert added.id [])[instanceId]?.getD []).flatMap _
      ).filter _ = _
    rw [listing]
    exact recorded.listing

/-- A related row stands where one stood. -/
private theorem rel_row {α : Type} {related : α → α → Prop} {before after : Option α} {row : α}
    (moved : Option.Rel related before after) (stored : before = some row) :
    ∃ row', after = some row' ∧ related row row' := by
  subst stored
  cases moved with
  | some held => exact ⟨_, rfl, held⟩

private theorem rel_row' {α : Type} {related : α → α → Prop} {before after : Option α} {row' : α}
    (moved : Option.Rel related before after) (stored : after = some row') :
    ∃ row, before = some row ∧ related row row' := by
  subst stored
  cases moved with
  | some held => exact ⟨_, rfl, held⟩

theorem Recorded.moved (recorded : Recorded reader instanceId history state.core)
    (moved : RowsMoved operation state state') :
    Recorded reader instanceId history state'.core := by
  have indexed := moved.indexed recorded.indexed
  rw [moved.core] at indexed ⊢
  refine recorded.grown ⟨?_, ?_, ?_, ?_, ?_, ?_, ?_⟩ indexed ?_ ?_ ?_
  · intro id row found
    obtain ⟨row', found', moves⟩ := rel_row (moved.jobs id) found
    exact ⟨row', found', moves.owner⟩
  · intro id row found
    obtain ⟨row', found', moves⟩ := rel_row (moved.steps id) found
    exact ⟨row', found', moves.2⟩
  · exact fun id _ => rfl
  · exact fun id _ => rfl
  · exact fun key _ => rfl
  · exact fun key record found => .inl found
  · exact recorded.listing
  · exact listed_rowsMoved recorded.steps fun id => rel_imp (fun _ _ moves => moves.2) (moved.steps id)
  · intro id row' found
    obtain ⟨row, stored, moves⟩ := rel_row' (moved.steps id) found
    obtain ⟨job, launched⟩ := mem_iff_lookup.mp (recorded.owned id row stored)
    obtain ⟨job', launched', _⟩ := rel_row (moved.jobs _) launched
    rw [moves.2]
    exact mem_of_lookup launched'
  · intro key seed found
    obtain ⟨row, launched, other⟩ := recorded.seeds key seed found
    obtain ⟨row', launched', moves⟩ := rel_row (moved.jobs _) launched
    exact ⟨row', launched', by rw [moves.owner]; exact other⟩

/-- No step is listed under an execution that is not there. -/
theorem Recorded.unlisted (recorded : Recorded reader instanceId history tables)
    {id : JobExecutionId} (unused : id ∉ tables.jobExecutions) :
    tables.stepExecutionsByJob[id]?.getD [] = [] := by
  cases held : tables.stepExecutionsByJob[id]? with
  | none => rfl
  | some ids =>
    rw [Option.getD_some, List.eq_nil_iff_forall_not_mem]
    intro stepId member
    obtain ⟨step, stored, rfl⟩ := recorded.steps.stored id ids held stepId member
    exact unused (recorded.owned stepId step stored)

theorem Recorded.launched {supply : Supply} {owner : JobInstanceId}
    {definition : DefinitionIdentity} {upgraded : Bool} {execution : JobExecution}
    (recorded : Recorded reader instanceId history state.core)
    (launched : Launched supply owner definition upgraded state execution state')
    (plain : upgraded = true → owner ≠ instanceId) :
    Recorded reader instanceId history state'.core := by
  have indexed := launched.indexed recorded.indexed
  have seeded := launched.seeded
  obtain ⟨listed, parameters, sources, seeds, found, _, _, unseeded, core⟩ := launched.tables
  have held : state'.upgradeSeeds = seeds := congrArg CoreTables.upgradeSeeds core
  have fresh : ∀ id ∈ state.jobExecutions, execution.id ≠ id := by
    rintro id member rfl
    exact launched.unused member
  have ofOwner : execution.jobInstanceId = owner := by
    rw [launched.made]
    rfl
  rw [held] at seeded
  rw [core] at indexed ⊢
  refine recorded.grown ⟨?_, ?_, ?_, ?_, ?_, ?_, ?_⟩ indexed recorded.steps ?_ ?_
  · intro id row stored
    refine ⟨row, ?_, rfl⟩
    change (state.jobExecutions.insert execution.id execution)[id]? = some row
    rw [lookup_insert, if_neg (fresh id (mem_of_lookup stored))]
    exact stored
  · exact fun id row stored => ⟨row, stored, rfl⟩
  · exact fun id _ => rfl
  · intro id member
    change (state.executionDefinitions.insert execution.id definition)[id]? = _
    rw [lookup_insert, if_neg (fresh id member)]
    rfl
  · exact fun key _ => rfl
  · exact fun key record stored => .inl stored
  · have listing : (((state.jobExecutionsByInstance.insert owner (listed ++ [execution.id]))[
        instanceId]?.getD []).flatMap fun id => state.stepExecutionsByJob[id]?.getD []) =
        state.core.stepsOf instanceId := by
      change _ = (state.jobExecutionsByInstance[instanceId]?.getD []).flatMap fun id =>
        state.stepExecutionsByJob[id]?.getD []
      rw [lookup_insert]
      split
      · rename_i same
        have empty : state.stepExecutionsByJob[execution.id]?.getD [] = [] :=
          recorded.unlisted launched.unused
        rw [← same, found, Option.getD_some, Option.getD_some, List.flatMap_append,
          List.flatMap_singleton, empty, List.append_nil]
      · rfl
    change List.filter _ (((state.jobExecutionsByInstance.insert owner
      (listed ++ [execution.id]))[instanceId]?.getD []).flatMap fun id =>
        state.stepExecutionsByJob[id]?.getD []) = _
    rw [listing]
    exact recorded.listing
  · intro id row stored
    exact mem_insert_iff.mpr (.inr (recorded.owned id row stored))
  · intro key seed stored
    change seeds[key]? = some seed at stored
    by_cases here : key.1 = execution.id
    · refine ⟨execution, ?_, ?_⟩
      · change (state.jobExecutions.insert execution.id execution)[key.1]? = _
        rw [lookup_insert, if_pos here.symm]
      · cases upgraded with
        | true =>
          rw [ofOwner]
          exact plain rfl
        | false =>
          rw [(unseeded rfl).2] at stored
          obtain ⟨row, before, _⟩ := recorded.seeds key seed stored
          exact absurd (mem_of_lookup before) (here ▸ launched.unused)
    · rw [seeded key here] at stored
      obtain ⟨row, before, other⟩ := recorded.seeds key seed stored
      refine ⟨row, ?_, other⟩
      change (state.jobExecutions.insert execution.id execution)[key.1]? = _
      rw [lookup_insert, if_neg (Ne.symm here)]
      exact before

/-- A new step holds no iteration, unless it is of another instance. -/
theorem Recorded.stepEntered {supply : Supply} {jobExecutionId : JobExecutionId} {nodeId : NodeId}
    {startLimit : Nat} {execution : StepExecution}
    (recorded : Recorded reader instanceId history state.core)
    (made : StepEntered supply jobExecutionId nodeId startLimit state execution state') :
    Recorded reader instanceId history state'.core := by
  obtain ⟨row, launched, _⟩ := made.stored
  obtain ⟨contexts, repeats, _, kept, unseeded, core⟩ := made.tables
  have fresh : ∀ id ∈ state.stepExecutions, execution.id ≠ id := by
    rintro id member rfl
    exact made.unused member
  have steps : Listed StepExecution.jobExecutionId
      (state.stepExecutions.insert execution.id execution)
      (pushUnder state.stepExecutionsByJob jobExecutionId execution.id) :=
    made.owner ▸ recorded.steps.push made.unused
  have absent : ∀ key : StepExecutionId × RepeatId, key.1 = execution.id →
      state.repeatExecutions[key]? = none := by
    intro key here
    cases held : state.repeatExecutions[key]? with
    | none => rfl
    | some record =>
      obtain ⟨step, _, stored, _⟩ := recorded.stored key record held
      exact absurd (mem_of_lookup stored) (here ▸ made.unused)
  rw [core]
  refine recorded.grown ⟨?_, ?_, ?_, ?_, ?_, ?_, ?_⟩
    (recorded.indexed.of_tables rfl rfl rfl rfl) steps ?_ recorded.seeds
  · exact fun id row stored => ⟨row, stored, rfl⟩
  · intro id step stored
    refine ⟨step, ?_, rfl⟩
    change (state.stepExecutions.insert execution.id execution)[id]? = some step
    rw [lookup_insert, if_neg (fresh id (mem_of_lookup stored))]
    exact stored
  · intro id member
    change (state.stepLogicalIds.insert execution.id nodeId)[id]? = _
    rw [lookup_insert, if_neg (fresh id member)]
    rfl
  · exact fun id _ => rfl
  · intro key member
    obtain ⟨step, _, stored, _⟩ := of_listed recorded.indexed recorded.steps member
    exact kept key fun here => fresh key.1 (mem_of_lookup stored) here.symm
  · intro key record stored
    change repeats[key]? = some record at stored
    by_cases here : key.1 = execution.id
    · right
      refine ⟨execution, row, ?_, ?_, ?_⟩
      · change (state.stepExecutions.insert execution.id execution)[key.1]? = _
        rw [lookup_insert, if_pos here.symm]
      · rw [made.owner]
        exact launched
      · cases seed : state.upgradeSeeds[(jobExecutionId, nodeId)]? with
        | none =>
          rw [unseeded seed, absent key here] at stored
          cases stored
        | some seeded =>
          obtain ⟨row', launched', other⟩ := recorded.seeds _ _ seed
          rw [show state.core.jobExecutions[jobExecutionId]? = some row from launched] at launched'
          cases launched'
          exact other
    · rw [kept key here] at stored
      exact .inl stored
  · change List.filter _ ((state.jobExecutionsByInstance[instanceId]?.getD []).flatMap fun id =>
      (pushUnder state.stepExecutionsByJob jobExecutionId execution.id)[id]?.getD []) = _
    rw [← recorded.listing]
    change _ = List.filter _ ((state.jobExecutionsByInstance[instanceId]?.getD []).flatMap fun id =>
      state.stepExecutionsByJob[id]?.getD [])
    rw [List.filter_flatMap, List.filter_flatMap]
    congr 1
    funext id
    rw [lookup_pushUnder]
    split
    · rename_i same
      have outside : execution.id ∉ state.stepExecutions := made.unused
      simp [same, List.filter_append, MemoryState.core, outside]
    · rfl
  · intro id step stored
    rcases lookup_insert_cases stored with ⟨rfl, rfl⟩ | ⟨_, before⟩
    · rw [made.owner]
      exact mem_of_lookup launched
    · exact recorded.owned id step before

/-- An iteration of another instance. -/
theorem Recorded.committedElsewhere {request : RepeatCommitRequest}
    (recorded : Recorded reader instanceId history state.core)
    (accepted : commitRepeatIteration reader request state = .ok ((request, true), state'))
    (other : request.jobInstanceId ≠ instanceId) :
    Recorded reader instanceId history state'.core := by
  obtain ⟨step, row, _, _, stored, _, launched, same, _⟩ :=
    validateRepeatRequest_ok.mp (commitRepeatIteration_follows accepted).1
  rw [repeatRecorded_core accepted]
  refine recorded.grown ⟨?_, ?_, ?_, ?_, ?_, ?_, recorded.listing⟩
    (recorded.indexed.of_tables rfl rfl rfl rfl) recorded.steps recorded.owned recorded.seeds
  · exact fun id row found => ⟨row, found, rfl⟩
  · exact fun id row found => ⟨row, found, rfl⟩
  · exact fun id _ => rfl
  · exact fun id _ => rfl
  · intro key member
    obtain ⟨step', row', stored', launched', same'⟩ :=
      of_listed recorded.indexed recorded.steps member
    have different : (request.stepExecutionId, request.repeatId) ≠ key := by
      rintro rfl
      rw [show state.core.stepExecutions[request.stepExecutionId]? = some step from stored]
        at stored'
      cases stored'
      rw [show state.core.jobExecutions[step.jobExecutionId]? = some row from launched]
        at launched'
      cases launched'
      exact other (same.symm.trans same')
    change (state.repeatExecutions.insert _ request)[key]? = _
    rw [lookup_insert, if_neg different]
    rfl
  · intro key record found
    rcases lookup_insert_cases found with ⟨rfl, rfl⟩ | ⟨_, before⟩
    · exact .inr ⟨step, row, stored, launched, same ▸ other⟩
    · exact .inl before

end Growth

section Commits

variable {instanceId : JobInstanceId} {history : List RepeatExecution}
  {request : RepeatCommitRequest}

/-- The check of a lineage opens it in the history. -/
theorem Recorded.opened (recorded : Recorded reader instanceId history state.core)
    (same : request.jobInstanceId = instanceId) (listed : instanceId ∈ state.jobExecutionsByInstance)
    {front lineage : RepeatLineage}
    (valid : validateRepeatLineage state request front lineage = .ok ())
    (opened : iterations.Open history (nodePath request.nodeId front)) :
    iterations.Open history (nodePath request.nodeId (front ++ lineage)) ∧
      Enclosed history request front lineage := by
  induction lineage generalizing front with
  | nil =>
    rw [List.append_nil]
    exact ⟨opened, trivial⟩
  | cons ancestor lineage ih =>
    obtain ⟨id, ordinal⟩ := ancestor
    simp only [validateRepeatLineage, bind_ok, require_ok, ensure_ok, decide_eq_true_eq, same,
      latestRepeatSnapshotInLineage_eq listed, Except.ok.injEq, existsAndEq, true_and] at valid
    obtain ⟨_, following, child, made, valid⟩ := valid
    obtain rfl := child_some made
    rw [recorded.latest _ _ _ opened] at following
    obtain ⟨whole, enclosed⟩ := ih valid (by
      rw [nodePath_append]
      exact opened.child (next_of_expected following))
    rw [List.append_assoc, List.singleton_append] at whole
    refine ⟨whole, fun prior latest => ?_, made, enclosed⟩
    rw [latest] at following
    exact (expectedOrdinal_some.mp following).1

/-- Where a lineage is open in the history, its check passes. -/
theorem Recorded.passes (recorded : Recorded reader instanceId history state.core)
    (same : request.jobInstanceId = instanceId) (listed : instanceId ∈ state.jobExecutionsByInstance)
    {front lineage : RepeatLineage}
    (opened : iterations.Open history (nodePath request.nodeId (front ++ lineage)))
    (enclosed : Enclosed history request front lineage) :
    validateRepeatLineage state request front lineage = .ok () := by
  induction lineage generalizing front with
  | nil => rfl
  | cons ancestor lineage ih =>
    obtain ⟨id, ordinal⟩ := ancestor
    obtain ⟨ofDefinition, made, deeper⟩ := enclosed
    have whole : front ++ (id, ordinal) :: lineage = front ++ [(id, ordinal)] ++ lineage := by
      rw [List.append_assoc, List.singleton_append]
    rw [whole] at opened
    have split : nodePath request.nodeId (front ++ [(id, ordinal)] ++ lineage) =
        nodePath request.nodeId front ++ [((request.nodeId, id), ordinal.val)] ++
          nodePath request.nodeId lineage := by
      simp [nodePath]
    have outer : iterations.Open history (nodePath request.nodeId front) := by
      intro inner key value leads
      rw [split, List.append_assoc] at opened
      exact opened inner key value (leads.trans (List.prefix_append _ _))
    have following := opened (nodePath request.nodeId front) (request.nodeId, id) ordinal.val
      (split ▸ List.prefix_append _ _)
    simp only [validateRepeatLineage, bind_ok, require_ok, ensure_ok, decide_eq_true_eq, same,
      latestRepeatSnapshotInLineage_eq listed, Except.ok.injEq, existsAndEq, true_and]
    refine ⟨(), ?_, _, made, ih opened deeper⟩
    rw [recorded.latest _ _ _ outer]
    exact expected_of_next following ofDefinition

theorem Enclosed.snoc {record : RepeatExecution} {front lineage : RepeatLineage}
    (enclosed : Enclosed history request front lineage)
    (before : iterations.Open history (nodePath request.nodeId (front ++ lineage)))
    (after : iterations.Open (history ++ [record]) (nodePath request.nodeId (front ++ lineage)))
    (orderly : iterations.Orderly (history ++ [record])) :
    Enclosed (history ++ [record]) request front lineage := by
  induction lineage generalizing front with
  | nil => trivial
  | cons ancestor lineage ih =>
    obtain ⟨id, ordinal⟩ := ancestor
    obtain ⟨ofDefinition, made, deeper⟩ := enclosed
    have whole : front ++ (id, ordinal) :: lineage = front ++ [(id, ordinal)] ++ lineage := by
      rw [List.append_assoc, List.singleton_append]
    rw [whole] at before after
    refine ⟨fun prior latest => ofDefinition prior ?_, made, ih deeper before after⟩
    rw [before.still after orderly ((by
      simp [nodePath] : nodePath request.nodeId front ++ [((request.nodeId, id), ordinal.val)] <+:
        nodePath request.nodeId (front ++ [(id, ordinal)] ++ lineage)))] at latest
    exact latest

/-- An iteration committed in turn is the next one, in an open lineage. -/
theorem Recorded.follows (recorded : Recorded reader instanceId history state.core)
    (accepted : commitRepeatIteration reader request state = .ok ((request, true), state'))
    (same : request.jobInstanceId = instanceId) (foremost : Foremost state.core request) :
    iterations.Open history (nodePath request.nodeId request.lineage) ∧
      Enclosed history request [] request.lineage ∧
      iterations.next history (nodePath request.nodeId request.lineage)
        (request.nodeId, request.repeatId) = some request.ordinal.val := by
  obtain ⟨valid, following⟩ := commitRepeatIteration_follows accepted
  obtain ⟨step, row, _, _, stored, logical, launched, ofInstance, _, _, _, _, ancestors⟩ :=
    validateRepeatRequest_ok.mp valid
  obtain ⟨executions, found, _⟩ := recorded.indexed.listed.complete _ row launched
  have listed : instanceId ∈ state.jobExecutionsByInstance := by
    rw [← same, ← ofInstance]
    exact mem_of_lookup found
  obtain ⟨opened, enclosed⟩ := recorded.opened same listed ancestors Lib.Iterated.open_nil
  rw [List.nil_append] at opened
  refine ⟨opened, enclosed, ?_⟩
  rcases following with ⟨existing, held, sameLineage, unfinished, next⟩ | ⟨prior, searched, expected⟩
  · -- the step's own record is the latest, for no later step holds one
    have member : request.stepExecutionId ∈ state.core.stepsOf instanceId :=
      recorded.listed stored launched (ofInstance.trans same)
    obtain ⟨before, after, split⟩ := List.append_of_mem member
    have latest : state.core.latestIteration instanceId request.nodeId request.repeatId
        request.lineage = some existing :=
      latestIteration_of_last split (iterationAt_some.mpr ⟨logical, held, sameLineage⟩)
        fun later member => .inl (foremost before after (same ▸ split) later member)
    rw [recorded.latest _ _ _ opened] at latest
    exact next_of_latest latest unfinished next
  · rw [same, latestRepeatSnapshotInLineage_eq listed, recorded.latest _ _ _ opened] at searched
    rw [← Except.ok.inj searched] at expected
    exact next_of_expected expected

/-- In a lineage that is open after one more record, the steps hold the latest one. -/
theorem Recorded.latest_after {record : RepeatExecution} {tables : CoreTables}
    (recorded : Recorded reader instanceId history tables)
    (orderly : iterations.Orderly (history ++ [record])) {nodeId : NodeId} {repeatId : RepeatId}
    {lineage : RepeatLineage}
    (after : iterations.Open (history ++ [record]) (nodePath nodeId lineage)) :
    iterations.latest history (nodePath nodeId lineage) (nodeId, repeatId) =
      tables.latestIteration instanceId nodeId repeatId lineage := by
  by_cases present : ∃ other ∈ history, nodePath other.nodeId other.lineage = nodePath nodeId lineage
  · obtain ⟨other, member, on⟩ := present
    exact (recorded.latest nodeId repeatId lineage (after.before orderly member on)).symm
  · have absent : ∀ other ∈ history,
        nodePath other.nodeId other.lineage ≠ nodePath nodeId lineage :=
      fun other member on => present ⟨other, member, on⟩
    rw [recorded.latest_of_absent absent]
    exact Lib.Iterated.latest_none absent

/-- Two records that one step may hold of a repeat are of the same enclosing repeats. -/
theorem Recorded.sameRepeats (recorded : Recorded reader instanceId history state.core)
    (accepted : commitRepeatIteration reader request state = .ok ((request, true), state'))
    (same : request.jobInstanceId = instanceId) (inTurn : InTurn reader state.core request)
    {held : RepeatExecution}
    (found : state.repeatExecutions[(request.stepExecutionId, request.repeatId)]? = some held) :
    held ∈ history ∧ held.nodeId = request.nodeId ∧
      (nodePath held.nodeId held.lineage).map (·.1) =
        (nodePath request.nodeId request.lineage).map (·.1) := by
  obtain ⟨step, row, definition, owner, stored, logical, launched, ofInstance, defined, _, declared,
    _⟩ := validateRepeatRequest_ok.mp (commitRepeatIteration_follows accepted).1
  obtain ⟨step', stored', member, isKey, node, definition', defined', _, declared'⟩ :=
    recorded.stands (recorded.listed stored launched (ofInstance.trans same)) found
  rw [show state.core.stepExecutions[request.stepExecutionId]? = some step from stored] at stored'
  cases stored'
  rw [show state.core.executionDefinitions[step.jobExecutionId]? = some definition from defined]
    at defined'
  cases defined'
  have sameStep : request.stepExecutionId = held.stepExecutionId := congrArg Prod.fst isKey
  have sameRepeat : request.repeatId = held.repeatId := congrArg Prod.snd isKey
  have sameNode : held.nodeId = request.nodeId := by
    rw [← sameStep] at node
    rw [show state.core.stepLogicalIds[request.stepExecutionId]? = some request.nodeId from logical]
      at node
    exact (Option.some.inj node).symm
  have sameChain := inTurn.once step definition stored defined held request sameRepeat.symm
    declared' (by simp [declared])
  exact ⟨member, sameNode, by rw [nodePath_keys, nodePath_keys, sameNode, sameChain]⟩

/-- An iteration committed in turn extends the history. -/
theorem Recorded.committed (recorded : Recorded reader instanceId history state.core)
    (accepted : commitRepeatIteration reader request state = .ok ((request, true), state'))
    (same : request.jobInstanceId = instanceId) (inTurn : InTurn reader state.core request) :
    Recorded reader instanceId (history ++ [request]) state'.core := by
  obtain ⟨opened, enclosed, following⟩ := recorded.follows accepted same inTurn.foremost
  obtain ⟨step, row, definition, owner, stored, logical, launched, ofInstance, defined, matched,
    declared, _⟩ := validateRepeatRequest_ok.mp (commitRepeatIteration_follows accepted).1
  have orderly : iterations.Orderly (history ++ [request]) := recorded.orderly.snoc opened following
  have listed := recorded.listed stored launched (ofInstance.trans same)
  have inserted := @iterationAt_insert state.core state'.core request
    (by rw [repeatRecorded_core accepted]) (by rw [repeatRecorded_core accepted]; rfl)
  have listing : state'.core.stepsOf instanceId = state.core.stepsOf instanceId := by
    rw [repeatRecorded_core accepted]
    rfl
  refine ⟨?_, ?_, ?_, ?_, ?_, orderly, ?_, ?_, ?_⟩
  · rw [repeatRecorded_core accepted]
    exact recorded.indexed.of_tables rfl rfl rfl rfl
  · rw [repeatRecorded_core accepted]
    exact recorded.steps
  · rw [repeatRecorded_core accepted]
    exact recorded.owned
  · rw [repeatRecorded_core accepted]
    exact recorded.seeds
  · rw [repeatRecorded_core accepted]
    intro key record found
    rcases lookup_insert_cases found with ⟨rfl, rfl⟩ | ⟨_, before⟩
    · exact ⟨step, row, stored, launched, fun _ => ⟨by simp, rfl, logical, definition, defined,
        matched, by simp [declared]⟩⟩
    · obtain ⟨step', row', stored', launched', stands⟩ := recorded.stored key record before
      refine ⟨step', row', stored', launched', fun owned => ?_⟩
      obtain ⟨member, isKey, node, defined'⟩ := stands owned
      exact ⟨List.mem_append_left _ member, isKey, node, defined'⟩
  · intro record member
    rcases List.mem_append.mp member with before | here
    · exact recorded.ofInstance record before
    · rw [List.mem_singleton.mp here]
      exact same
  · intro nodeId repeatId lineage after
    by_cases here : nodePath request.nodeId request.lineage = nodePath nodeId lineage ∧
        (request.nodeId, request.repeatId) = (nodeId, repeatId)
    · have latest : iterations.latest (history ++ [request]) (nodePath nodeId lineage)
          (nodeId, repeatId) = some request := Lib.Iterated.latest_snoc_same here.1 here.2
      obtain ⟨rfl, rfl⟩ := Prod.mk.inj here.2
      obtain rfl := nodePath_injective here.1
      rw [latest]
      obtain ⟨before, later, split⟩ := List.append_of_mem listed
      refine latestIteration_of_last (listing.trans split) ?_ fun other member => ?_
      · rw [inserted, if_pos ⟨rfl, rfl⟩, if_pos ⟨logical, rfl⟩]
      · rw [inserted]
        split
        · split
          · exact .inr rfl
          · exact .inl rfl
        · exact .inl (inTurn.foremost before later (same ▸ split) other member)
    · have latest : iterations.latest (history ++ [request]) (nodePath nodeId lineage)
          (nodeId, repeatId) = iterations.latest history (nodePath nodeId lineage)
          (nodeId, repeatId) := Lib.Iterated.latest_snoc_other here
      have kept : ∀ stepId, state'.core.iterationAt nodeId repeatId lineage stepId =
          state.core.iterationAt nodeId repeatId lineage stepId := by
        intro stepId
        rw [inserted]
        split
        · -- what is overwritten is of another lineage, and that one is not open
          rename_i overwritten
          obtain ⟨rfl, rfl⟩ := overwritten
          rw [if_neg]
          · cases held : state.core.iterationAt nodeId request.repeatId lineage
                request.stepExecutionId with
            | none => rfl
            | some record =>
              exfalso
              obtain ⟨onNode, found, rfl⟩ := iterationAt_some.mp held
              rw [show state.core.stepLogicalIds[request.stepExecutionId]? = some request.nodeId
                from logical] at onNode
              cases onNode
              obtain ⟨member, sameNode, sameKeys⟩ :=
                recorded.sameRepeats accepted same inTurn found
              rw [sameNode] at sameKeys
              have before := after.before orderly member (by rw [← sameNode]; rfl)
              exact here ⟨(before.unique opened sameKeys).symm, rfl⟩
          · rintro ⟨onNode, rfl⟩
            rw [show state.core.stepLogicalIds[request.stepExecutionId]? = some request.nodeId
              from logical] at onNode
            cases onNode
            exact here ⟨rfl, rfl⟩
        · rfl
      rw [latest, recorded.latest_after orderly after, CoreTables.latestIteration,
        CoreTables.latestIteration, listing, funext kept]
  · intro record member after
    rcases List.mem_append.mp member with before | here
    · have earlier := after.before orderly before rfl
      exact (recorded.enclosed record before earlier).snoc earlier after orderly
    · obtain rfl := List.mem_singleton.mp here
      exact enclosed.snoc opened after orderly

end Commits

section Runs

variable {instanceId : JobInstanceId} {entries : List Entry}

/-- Changes other than a commit of an iteration leave the history as it is. -/
theorem Recorded.change {history : List RepeatExecution}
    (recorded : Recorded reader instanceId history state.core)
    (change : Change reader operation state state')
    (kept : operation.leavesDefinition instanceId = true)
    (other : ∀ request, operation ≠ .commitRepeatIteration request) :
    Recorded reader instanceId history state'.core := by
  cases change with
  | quiet same => exact same ▸ recorded
  | entered added free unused core => exact core ▸ recorded.entered free unused
  | launched made upgrades =>
    refine recorded.launched made fun upgraded => ?_
    obtain ⟨upgrade, parameters, rfl⟩ := upgrades upgraded
    simpa [Operation.leavesDefinition] using kept
  | moved rows => exact recorded.moved rows
  | stepEntered made => exact recorded.stepEntered made
  | decided decision unused core =>
    exact core ▸ recorded.elsewhere (recorded.indexed.of_tables rfl rfl rfl rfl)
      rfl rfl rfl rfl rfl rfl rfl rfl
  | repeated same accepted => exact absurd same (other _)
  | parametersStored unset core =>
    exact core ▸ recorded.elsewhere (recorded.indexed.of_tables rfl rfl rfl rfl)
      rfl rfl rfl rfl rfl rfl rfl rfl
  | linkCreated free selected unobserved made =>
    exact made ▸ recorded.elsewhere (recorded.indexed.of_tables rfl rfl rfl rfl)
      rfl rfl rfl rfl rfl rfl rfl rfl
  | linkContinued free continued made =>
    exact made ▸ recorded.elsewhere (recorded.indexed.of_tables rfl rfl rfl rfl)
      rfl rfl rfl rfl rfl rfl rfl rfl
  | observed linked stored ended core =>
    exact core ▸ recorded.elsewhere (recorded.indexed.of_tables rfl rfl rfl rfl)
      rfl rfl rfl rfl rfl rfl rfl rfl
  | purged same checked =>
    subst same
    cases kept

theorem recorded_iff {entry : Entry} {record : RepeatExecution} :
    entry.recorded reader = some record ↔ ∃ request state',
      entry.operation = .commitRepeatIteration request ∧
        commitRepeatIteration reader request entry.before = .ok ((record, true), state') := by
  unfold Entry.recorded
  cases entry.operation with
  | commitRepeatIteration request =>
    dsimp only
    cases done : commitRepeatIteration reader request entry.before with
    | error failure => simp [done]
    | ok result =>
      obtain ⟨⟨answer, recorded⟩, state'⟩ := result
      cases recorded with
      | false => simp [done]
      | true => simp [done]
  | _ => simp

theorem acceptedIterations_snoc {entry : Entry} :
    acceptedIterations reader instanceId (entries ++ [entry]) =
      acceptedIterations reader instanceId entries ++
        ((entry.recorded reader).toList.filter (·.jobInstanceId = instanceId)) := by
  rw [acceptedIterations, List.filterMap_append, List.filter_append]
  rfl

/-- An operation that returns extends the history by what it records. -/
theorem Recorded.performed {entry : Entry}
    (recorded : Recorded reader instanceId (acceptedIterations reader instanceId entries)
      entry.before.core) (keyed : Keyed entry.before) (allowed : Orderly reader instanceId entry)
    (done : entry.operation.perform reader entry.supply entry.createdPlans entry.before =
      .ok ((), state')) :
    Recorded reader instanceId (acceptedIterations reader instanceId (entries ++ [entry]))
      state'.core := by
  have inTurn := allowed.inTurn
  have found := @recorded_iff reader entry
  rw [acceptedIterations_snoc]
  cases repeats : entry.recorded reader with
  | some record =>
    obtain ⟨request, after, same, accepted⟩ := found.mp repeats
    rw [same] at done
    obtain ⟨_, answered⟩ := discard_yields.mp done
    rw [accepted] at answered
    obtain ⟨rfl, rfl⟩ := Prod.mk.inj (Except.ok.inj answered)
    rcases commitRepeatIteration_effect accepted with ⟨_, replayed⟩ | ⟨whole, _⟩
    · cases replayed
    · obtain ⟨rfl, _⟩ := Prod.mk.inj whole
      by_cases here : record.jobInstanceId = instanceId
      · have extended := recorded.committed accepted here (inTurn record repeats here)
        simpa [here] using extended
      · have kept := recorded.committedElsewhere accepted here
        simpa [here] using kept
  | none =>
    have same : acceptedIterations reader instanceId entries ++ ((none : Option RepeatExecution
        ).toList.filter (·.jobInstanceId = instanceId)) =
        acceptedIterations reader instanceId entries := by simp
    rw [same]
    cases operation : entry.operation with
    | commitRepeatIteration request =>
      rw [operation] at done
      obtain ⟨answer, answered⟩ := discard_yields.mp done
      rcases commitRepeatIteration_effect answered with ⟨rfl, _⟩ | ⟨rfl, _⟩
      · exact recorded
      · rw [found.mpr ⟨request, state', operation, answered⟩] at repeats
        cases repeats
    | _ =>
      have changes := Operation.perform_changes keyed done
      have kept := allowed.kept
      rw [operation] at changes kept
      clear done
      induction changes with
      | refl => exact recorded
      | tail _ change held => exact held.change change kept nofun

/-- The rule for the history of an instance, over the operations behind a state. -/
theorem Follows.recorded (follows : Follows reader entries state)
    (allowed : ∀ entry ∈ entries, Orderly reader instanceId entry) :
    Keyed state ∧
      Recorded reader instanceId (acceptedIterations reader instanceId entries) state.core := by
  induction follows with
  | start => exact ⟨keyed_empty, recorded_empty reader instanceId⟩
  | revised revision follows ih =>
    obtain ⟨keyed, holds⟩ := ih allowed
    exact ⟨keyed.same rfl, holds⟩
  | performed follows done ih =>
    obtain ⟨keyed, holds⟩ := ih fun other member => allowed other (List.mem_append_left _ member)
    exact ⟨Changes.keyed (Operation.perform_changes keyed done) keyed,
      holds.performed keyed (allowed _ (by simp)) done⟩

end Runs

end OxideBatch.Repository
