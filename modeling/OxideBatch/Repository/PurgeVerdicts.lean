import OxideBatch.Lib.Failures
import OxideBatch.Repository.PurgeCounts

/-! What a purge does to the verdict on a new launch: the last execution that survives
decides, whatever the one before the purge was. -/

namespace OxideBatch.Repository

open OxideBatch.Core OxideBatch.Plan Program
open Std (ExtTreeMap ExtTreeSet)
open Tables

variable {supply : Supply} {state state' : MemoryState} {id : JobInstanceId}

section Verdict

/-- The refusal of an instance whose latest execution has the status for good. -/
def refusal (id : JobInstanceId) : BatchStatus → Option RepositoryError
  | .completed => some (.completedInstance id)
  | .abandoned => some (.abandonedInstance id)
  | _ => none

/-- The refusals of finished work. -/
def Settled (id : JobInstanceId) (reason : RepositoryError) : Prop :=
  reason = .completedInstance id ∨ reason = .abandonedInstance id

/-- Any other failure. -/
def Unsettled (failure : RepositoryError) : Prop := ∀ id, ¬ Settled id failure

private theorem refuses_require {α : Type} {value : Option α} {failure : RepositoryError}
    (unsettled : Unsettled failure) : Refuses Unsettled (require value failure) := by
  cases value with
  | none => exact .error unsettled
  | some value => exact .ok _

private theorem refuses_ensure {condition : Bool} {failure : RepositoryError}
    (unsettled : Unsettled failure) : Refuses Unsettled (ensure condition failure) := by
  cases condition with
  | false => exact .error unsettled
  | true => exact .ok _

private theorem refuses_instanceForExecution (jobExecutionId : JobExecutionId) :
    Refuses Unsettled (instanceForExecution state jobExecutionId) := by
  unfold instanceForExecution
  split
  · exact .ok _
  · exact .error (by simp [Unsettled, Settled])

private theorem refuses_validateScopeProvenanceSource (entry : ScopeResolutionProvenance) :
    Refuses Unsettled (validateScopeProvenanceSource state entry) := by
  refine .bind (refuses_instanceForExecution _) fun _ => .bind ?_ fun _ =>
    refuses_ensure (by simp [Unsettled, Settled])
  unfold sourceInstance
  split
  · split
    · exact .ok _
    · exact (refuses_instanceForExecution _).map _
  · split
    · exact .ok _
    · exact (refuses_instanceForExecution _).map _
  · exact .bind (refuses_require (by simp [Unsettled, Settled])) fun _ =>
      (refuses_instanceForExecution _).map _
  · exact .ok _
  · exact .ok _

private theorem fails_copyForward {sourceJob targetJob : JobExecutionId}
    {sourceStep targetStep : Option StepExecutionId} :
    Fails Unsettled
      (copyForwardScopeResolutionProvenance sourceJob sourceStep targetJob targetStep) := by
  refine .bind .get fun _ => .forM (fun entry => ?_) _
  refine .bind (.lift (refuses_require (by simp [Unsettled, Settled]))) fun _ => ?_
  refine .bind .get fun _ => .bind (.lift (refuses_validateScopeProvenanceSource _)) fun _ => ?_
  split
  · exact .throw (by simp [Unsettled, Settled])
  · exact .modify _

private theorem refuses_resolveScopeSeedSource {jobExecutionId : JobExecutionId}
    {ownerStep : Option StepExecutionId} (source : ScopeResolutionSource) :
    Refuses Unsettled (resolveScopeSeedSource state jobExecutionId ownerStep source) := by
  unfold resolveScopeSeedSource
  split
  · exact .bind (refuses_require (by simp [Unsettled, Settled])) fun _ =>
      .bind (refuses_require (by simp [Unsettled, Settled])) fun _ => .ok _
  · exact .ok _
  · exact .ok _
  · exact .ok _

private theorem fails_materializeScopeSeeds {jobExecutionId : JobExecutionId}
    {ownerStep : Option StepExecutionId} {seeds : List MemoryScopeSeed} :
    Fails Unsettled (materializeScopeSeeds jobExecutionId ownerStep seeds) := by
  refine .bind .get fun _ => .bind ?_ fun _ => .modify _
  intro state
  induction seeds generalizing state with
  | nil => exact .ok _
  | cons seed seeds ih =>
    rw [List.mapM_cons]
    refine Fails.bind ?_ (fun _ => Fails.bind ih fun _ => .pure _) state
    exact .bind (.lift (refuses_resolveScopeSeedSource _)) fun _ =>
      .lift (refuses_require (by simp [Unsettled, Settled]))

private theorem fails_inheritState {id : JobExecutionId} {source : Option JobExecutionId}
    {upgraded : Bool} {seeds : NodeSeeds × List MemoryScopeSeed}
    {parameters : Option JobParameters} :
    Fails Unsettled (inheritState id source upgraded seeds parameters) := by
  have inherits : Fails Unsettled (inheritParameters id parameters) := by
    cases parameters with
    | none => exact .pure _
    | some parameters => exact .modify _
  unfold inheritState
  split
  · exact .bind (.bind fails_materializeScopeSeeds fun _ => .modify _) fun _ => inherits
  · refine .bind inherits fun _ => ?_
    cases source with
    | none => exact .pure _
    | some source => exact fails_copyForward

private theorem refuses_upgradeTransform {upgrade : DefinitionUpgrade} {node : NodeId}
    {kind : DefinitionStateKind} {stateId : Option String} :
    Refuses Unsettled (upgradeTransform upgrade node kind stateId) := by
  unfold upgradeTransform
  split
  · exact .ok _
  · exact .ok _
  · exact .error (by simp [Unsettled, Settled])

private theorem refuses_upgradeState {upgrade : DefinitionUpgradeExecution} {node : NodeId}
    {kind : DefinitionStateKind} {stateId : Option String} {source : ExecutionContext} :
    Refuses Unsettled (upgradeState upgrade node kind stateId source) := by
  refine .bind refuses_upgradeTransform fun transform => ?_
  cases transform with
  | none => exact .ok _
  | some transform =>
    change Refuses Unsettled (transformContext upgrade transform source)
    unfold transformContext
    split
    · exact .error (by simp [Unsettled, Settled])
    · exact refuses_require (by simp [Unsettled, Settled])

private theorem refuses_scopeSeedSource {upgrade : DefinitionUpgrade}
    {ownerStep : Option StepExecutionId} (source : ScopeResolutionSource) :
    Refuses Unsettled (scopeSeedSource upgrade ownerStep source) := by
  unfold scopeSeedSource
  split
  · refine .bind (refuses_ensure (by simp [Unsettled, Settled])) fun _ =>
      .bind (refuses_require (by simp [Unsettled, Settled])) fun _ =>
        .bind refuses_upgradeTransform fun transform => ?_
    cases transform with
    | none => exact .ok _
    | some transform => exact .ok _
  · exact .ok _

private theorem refuses_buildScopeSeeds {ownerJob : JobExecutionId}
    {ownerStep : Option StepExecutionId} {upgrade : DefinitionUpgrade} :
    Refuses Unsettled (buildScopeSeeds state ownerJob ownerStep upgrade) :=
  .mapM (fun _ => .bind (refuses_scopeSeedSource _) fun _ => .ok _) _

private theorem refuses_latestFlowStepAmong {node : NodeId} (executions : List JobExecutionId) :
    Refuses Unsettled (latestFlowStepAmong state node executions) := by
  induction executions with
  | nil => exact .ok _
  | cons execution earlier ih =>
    unfold latestFlowStepAmong
    split
    · exact .bind (refuses_require (by simp [Unsettled, Settled])) fun _ => .ok _
    · split
      · exact .bind (refuses_require (by simp [Unsettled, Settled])) fun _ => .ok _
      · split
        · exact .ok _
        · exact ih

private theorem refuses_seedsOf {source : Option JobExecutionId}
    {upgrade : Option DefinitionUpgradeExecution} :
    Refuses Unsettled (seedsOf state id source upgrade) := by
  cases upgrade with
  | none => exact .ok _
  | some upgrade =>
    refine .bind (.foldlM (fun seeds mapping => ?_) _ _) fun _ => ?_
    · refine .bind (.bind (refuses_require (by simp [Unsettled, Settled])) fun _ =>
        refuses_latestFlowStepAmong _) fun prior => ?_
      cases prior with
      | none => exact .ok _
      | some prior =>
        -- what follows the context of the step
        have rest : ∀ context, Refuses Unsettled (do
            let repeats ← upgradeRepeats state upgrade mapping.1 mapping.2 prior.execution.id
            let scope ← buildScopeSeeds state prior.execution.jobExecutionId
              (some prior.execution.id) upgrade.upgrade
            pure (seeds.insert mapping.2
              ⟨prior.execution.id, prior.execution.metadata.counts, context, repeats, scope⟩)) :=
          fun _ => .bind (.mapM (fun _ => .bind refuses_upgradeState fun _ => .ok _) _) fun _ =>
            .bind refuses_buildScopeSeeds fun _ => .ok _
        rcases prior with ⟨node, execution, context⟩
        cases context with
        | none => exact rest none
        | some context => exact .bind refuses_upgradeState fun content => rest (some content)
    · cases source with
      | none => exact .ok _
      | some source => exact .bind refuses_buildScopeSeeds fun _ => .ok _

private theorem refuses_checkDefinition {jobName : JobName} {latest : JobExecution}
    {definition : DefinitionIdentity} {upgrade : Option DefinitionUpgradeExecution} :
    Refuses Unsettled (checkDefinition state id jobName latest definition upgrade) := by
  refine .bind (refuses_require (by simp [Unsettled, Settled])) fun previous => ?_
  split
  · exact .bind (refuses_require (by simp [Unsettled, Settled])) fun _ =>
      refuses_ensure (by simp [Unsettled, Settled])
  · exact refuses_ensure (by simp [Unsettled, Settled])

/-- Past the check of the latest execution no refusal is of finished work. -/
private theorem fails_launch {listing : MemoryState} {latest : Option JobExecution}
    {definition : DefinitionIdentity} {upgrade : Option DefinitionUpgradeExecution} :
    Fails Unsettled (do
      let source := latest.map (·.id)
      let seeds ← seedsOf listing id source upgrade
      let execution ← require supply.jobExecutionId (.identifier .jobExecution)
      ensure (!listing.jobExecutions.contains execution)
        (.duplicateIdentifier .jobExecution execution.get)
      let attempt ← nextAttempt listing id
      let row := JobExecution.new execution id (.starting supply.now .zero)
      modify (insertJobExecution row attempt definition)
      inheritState execution source upgrade.isSome seeds
        (source.bind fun source => listing.jobParameters[source]?)
      let listed ← require (← get).jobExecutionsByInstance[id]? (.jobInstanceNotFound id)
      modify fun state =>
        { state with
          jobExecutionsByInstance :=
            state.jobExecutionsByInstance.insert id (listed ++ [execution]) }
      pure row : StagedM JobExecution) := by
  refine .bind (.lift refuses_seedsOf) fun seeds => ?_
  refine .bind (.lift (refuses_require (by simp [Unsettled, Settled]))) fun execution => ?_
  refine .bind (.lift (refuses_ensure (by simp [Unsettled, Settled]))) fun _ => ?_
  refine .bind (.lift (refuses_require (by simp [Unsettled, Settled]))) fun attempt => ?_
  refine .bind (.modify _) fun _ => .bind fails_inheritState fun _ => .bind .get fun _ => ?_
  exact .bind (.lift (refuses_require (by simp [Unsettled, Settled]))) fun listed =>
    .bind (.modify _) fun _ => .pure _

private theorem checkRestart_settled {latest : JobExecution} {reason : RepositoryError}
    (settled : Settled id reason) :
    checkRestart id latest = .error reason ↔ refusal id latest.status = some reason := by
  unfold checkRestart refusal
  cases latest.status <;> rcases settled with rfl | rfl <;> simp

private theorem checkLatest_settled {jobName : JobName} {latest : Option JobExecution}
    {definition : DefinitionIdentity} {upgrade : Option DefinitionUpgradeExecution}
    {reason : RepositoryError} (settled : Settled id reason) :
    checkLatest state id jobName latest definition upgrade = .error reason ↔
      ∃ row, latest = some row ∧ refusal id row.status = some reason := by
  cases latest with
  | none => simp [checkLatest]
  | some row =>
    simp only [checkLatest, Option.some.injEq, existsAndEq, true_and]
    rw [← checkRestart_settled settled]
    cases checked : checkRestart id row with
    | error failure => exact Iff.rfl
    | ok _ =>
      constructor
      · exact fun failed => absurd settled (refuses_checkDefinition reason failed id)
      · intro failed
        cases failed

/-- The latest execution alone refuses an attempt for finished work. -/
private theorem createAttempt_settled {jobName : JobName} {definition : DefinitionIdentity}
    {upgrade : Option DefinitionUpgradeExecution} {reason : RepositoryError}
    (settled : Settled id reason) :
    createAttempt supply id jobName definition upgrade state = .error reason ↔
      ∃ latest, latestJobExecution state id = .ok (some latest) ∧
        refusal id latest.status = some reason := by
  have never {α : Type} {program : StagedM α} (fails : Fails Unsettled program)
      (state : MemoryState) : program state ≠ .error reason :=
    fails.ne (fun unsettled => unsettled id settled) state
  obtain ⟨launch, launches, begins⟩ : ∃ launch : Option JobExecution → StagedM JobExecution,
      (∀ latest, Fails Unsettled (launch latest)) ∧
        createAttempt supply id jobName definition upgrade state =
          (liftM (latestJobExecution state id) >>= fun latest =>
            liftM (checkLatest state id jobName latest definition upgrade) >>= fun _ =>
              launch latest : StagedM JobExecution) state :=
    ⟨_, fun latest => @fails_launch supply id state latest definition upgrade, rfl⟩
  have named : Refuses Unsettled (latestJobExecution state id) := by
    unfold latestJobExecution
    split
    · split
      · exact .ok _
      · exact .error (by simp [Unsettled, Settled])
    · exact .ok _
  rw [begins]
  constructor
  · intro failed
    rcases bind_errs.mp failed with failed | ⟨latest, _, found, failed⟩
    · exact absurd failed (never (.lift named) state)
    obtain ⟨holds, rfl⟩ := lift_yields.mp found
    rcases bind_errs.mp failed with failed | ⟨_, _, _, failed⟩
    · obtain ⟨row, rfl, refused⟩ := (checkLatest_settled settled).mp (lift_errs.mp failed)
      exact ⟨row, holds, refused⟩
    · exact absurd failed (never (launches latest) _)
  · rintro ⟨latest, found, refused⟩
    refine bind_errs.mpr (.inr ⟨some latest, state, lift_yields.mpr ⟨found, rfl⟩, ?_⟩)
    exact bind_errs.mpr (.inl (lift_errs.mpr
      ((checkLatest_settled settled).mpr ⟨latest, rfl, refused⟩)))

/-- The definition may be launched under the job name. -/
def Defined (state : MemoryState) (jobName : JobName) (definition : DefinitionIdentity) : Prop :=
  ∃ state', ensureDefinition jobName definition state = .ok ((), state')

private theorem fails_ensureDefinition {jobName : JobName} {definition : DefinitionIdentity} :
    Fails Unsettled (ensureDefinition jobName definition) := by
  intro state
  unfold ensureDefinition
  split
  · exact Fails.throw (by simp [Unsettled, Settled]) state
  · refine Fails.bind .get (fun held => ?_) state
    cases held.definitions[(jobName, definition.revision)]? with
    | none => exact .modify _
    | some existing =>
      dsimp only
      split
      · exact .throw (by simp [Unsettled, Settled])
      · exact .pure _

/-- So is a launch: for finished work it is refused by the latest execution alone. -/
private theorem createJobExecution_settled {definition : DefinitionIdentity}
    {upgrade : Option DefinitionUpgradeExecution} {reason : RepositoryError}
    (settled : Settled id reason) :
    createJobExecution supply id definition upgrade state = .error reason ↔
      ∃ row, state.instancesById[id]? = some row ∧ Defined state row.key.jobName definition ∧
        ∃ latest, latestJobExecution state id = .ok (some latest) ∧
          refusal id latest.status = some reason := by
  have never {failure : RepositoryError} (unsettled : Unsettled failure) : failure ≠ reason :=
    fun same => unsettled id (same ▸ settled)
  have begins : createJobExecution supply id definition upgrade state =
      (liftM (require state.instancesById[id]? (.jobInstanceNotFound id)) >>= fun row =>
        ensureDefinition row.key.jobName definition >>= fun _ =>
          createAttempt supply id row.key.jobName definition upgrade : StagedM JobExecution)
        state := rfl
  have kept {jobName : JobName} {state' : MemoryState}
      (defined : ensureDefinition jobName definition state = .ok ((), state')) :
      latestJobExecution state' id = latestJobExecution state id := by
    obtain ⟨_, _, rfl⟩ := ensureDefinition_updates defined
    rfl
  rw [begins]
  constructor
  · intro failed
    rcases bind_errs.mp failed with failed | ⟨row, _, found, failed⟩
    · have unsettled : Refuses Unsettled
          (require state.instancesById[id]? (.jobInstanceNotFound id)) :=
        refuses_require (by simp [Unsettled, Settled])
      exact absurd rfl (never (unsettled reason (lift_errs.mp failed)))
    obtain ⟨holds, rfl⟩ := lift_yields.mp found
    rcases bind_errs.mp failed with failed | ⟨_, state', defined, failed⟩
    · exact absurd rfl (never (fails_ensureDefinition state reason failed))
    obtain ⟨latest, listed, refused⟩ := (createAttempt_settled settled).mp failed
    exact ⟨row, require_ok.mp holds, ⟨state', defined⟩, latest, kept defined ▸ listed, refused⟩
  · rintro ⟨row, found, ⟨state', defined⟩, latest, listed, refused⟩
    refine bind_errs.mpr (.inr ⟨row, state, lift_yields.mpr ⟨require_ok.mpr found, rfl⟩, ?_⟩)
    refine bind_errs.mpr (.inr ⟨(), state', defined, ?_⟩)
    exact (createAttempt_settled settled).mpr ⟨latest, (kept defined).trans listed, refused⟩

end Verdict

section Standing

variable {candidates : List PurgeCandidate}

private theorem definitions_purged (candidates : List PurgeCandidate) (state : MemoryState) :
    (purged state candidates).definitions = state.definitions := by
  unfold purged
  rw [purgeInstances_kept]
  induction candidates generalizing state with
  | nil => rfl
  | cons candidate candidates ih =>
    exact (ih (purgeCandidate state candidate)).trans (candidatePurged candidate state).definitions

/-- Only the definitions decide whether one may be launched. -/
private theorem Defined.congr {jobName : JobName} {definition : DefinitionIdentity}
    (same : state'.definitions = state.definitions) (defined : Defined state jobName definition) :
    Defined state' jobName definition := by
  obtain ⟨_, defined⟩ := defined
  unfold Defined
  unfold ensureDefinition at defined ⊢
  split at defined
  · simp at defined
  · rename_i named
    simp only [bind_yields, get_yields, existsAndEq, and_true, true_and] at defined
    simp only [named, Bool.false_eq_true, if_false, bind_yields, get_yields, existsAndEq, and_true,
      true_and, same]
    cases found : state.definitions[(jobName, definition.revision)]? with
    | none => exact ⟨_, rfl⟩
    | some existing =>
      simp only [found] at defined ⊢
      split at defined
      · simp at defined
      · rename_i drift
        exact ⟨state', by rw [if_neg drift]; rfl⟩

/-- An instance that lists something keeps its list. -/
private theorem purgeInstances_spares {ids : List JobInstanceId}
    (occupied : state.jobExecutionsByInstance[id]? ≠ some []) :
    (ids.foldl purgeInstance state).jobExecutionsByInstance[id]? =
      state.jobExecutionsByInstance[id]? := by
  induction ids generalizing state with
  | nil => rfl
  | cons first ids ih =>
    have here : (purgeInstance state first).jobExecutionsByInstance[id]? =
        state.jobExecutionsByInstance[id]? := by
      unfold purgeInstance
      split
      · rename_i empty
        split
        · rfl
        · have different : first ≠ id := fun same => occupied (same ▸ empty)
          exact lookup_erase.trans (if_neg different)
      · rfl
    rw [List.foldl_cons, ih (here ▸ occupied), here]

/-- The executions an instance still lists behind a purge. -/
def spared (state : MemoryState) (candidates : List PurgeCandidate) (id : JobInstanceId) :
    List JobExecutionId :=
  (state.jobExecutionsByInstance[id]?.getD []).filter fun execution =>
    decide (∀ candidate ∈ candidates, candidate.jobInstanceId = id →
      candidate.jobExecutionId ≠ execution)

/-- The last of them, where its row is left. -/
def lastSpared (state : MemoryState) (candidates : List PurgeCandidate) (id : JobInstanceId) :
    Option JobExecution :=
  (spared state candidates id).getLast?.bind fun execution =>
    if execution ∈ candidates.map (·.jobExecutionId) then none
    else state.jobExecutions[execution]?

variable {listed : List JobExecutionId}

private theorem lists_spared (lists : state.jobExecutionsByInstance[id]? = some listed) :
    (candidates.foldl purgeCandidate state).jobExecutionsByInstance[id]? =
      some (spared state candidates id) := by
  unfold spared
  rw [(rowsPurged candidates state).lists, lists]
  rfl

/-- An instance goes when a purge leaves none of its executions. -/
private theorem instance_purged {row : JobInstance} (found : state.instancesById[id]? = some row)
    (lists : state.jobExecutionsByInstance[id]? = some listed) (occupied : listed ≠ []) :
    (purged state candidates).instancesById[id]? =
      if spared state candidates id = [] then none else some row := by
  have rows := (rowsPurged candidates state).instances
  have known : id ∈ (candidates.foldl purgeCandidate state).instancesById := by
    rw [rows]
    exact mem_of_lookup found
  unfold purged
  rw [lookup_purgeInstances id fun _ => known, rows, found, lists_spared lists]
  refine if_congr ⟨fun both => Option.some.inj both.2, fun cleared => ⟨?_, congrArg some cleared⟩⟩
    rfl rfl
  obtain ⟨execution, member⟩ := List.exists_mem_of_ne_nil listed occupied
  unfold spared at cleared
  rw [lists] at cleared
  have taken := List.filter_eq_nil_iff.mp cleared execution member
  simp only [decide_eq_true_eq, not_forall, not_not] at taken
  obtain ⟨candidate, among, named, _⟩ := taken
  exact mem_dedupNeighbours.mpr (List.mem_map.mpr ⟨candidate, among, named⟩)

private theorem latest_purged (lists : state.jobExecutionsByInstance[id]? = some listed)
    (left : spared state candidates id ≠ []) :
    latestJobExecution (purged state candidates) id = .ok (lastSpared state candidates id) := by
  have lists' := @lists_spared _ _ candidates _ lists
  have kept : (purged state candidates).jobExecutionsByInstance[id]? =
      some (spared state candidates id) :=
    (purgeInstances_spares fun empty =>
      left (Option.some.inj (lists'.symm.trans empty))).trans lists'
  have rows : (purged state candidates).jobExecutions =
      eraseAll state.jobExecutions (candidates.map (·.jobExecutionId)) := by
    unfold purged
    rw [purgeInstances_kept]
    exact (rowsPurged candidates state).rows
  unfold latestJobExecution lastSpared
  rw [kept, rows]
  simp only [lookup_eraseAll]

private theorem createJobExecution_unknown {definition : DefinitionIdentity}
    {upgrade : Option DefinitionUpgradeExecution} (unknown : state.instancesById[id]? = none) :
    createJobExecution supply id definition upgrade state = .error (.jobInstanceNotFound id) := by
  have begins : createJobExecution supply id definition upgrade state =
      (liftM (require state.instancesById[id]? (.jobInstanceNotFound id)) >>= fun row =>
        ensureDefinition row.key.jobName definition >>= fun _ =>
          createAttempt supply id row.key.jobName definition upgrade : StagedM JobExecution)
        state := rfl
  rw [begins, unknown]
  rfl

private theorem listed_of_latest {latest : JobExecution}
    (current : latestJobExecution state id = .ok (some latest)) :
    ∃ listed, state.jobExecutionsByInstance[id]? = some listed ∧ listed ≠ [] := by
  unfold latestJobExecution at current
  cases lists : state.jobExecutionsByInstance[id]? with
  | none =>
    simp only [lists] at current
    split at current
    · cases current
    · cases current
  | some listed =>
    refine ⟨listed, rfl, ?_⟩
    rintro rfl
    rw [lists] at current
    cases current

/-- What a purge makes of a launch that was refused for finished work: the instance is gone where
it lists nothing any more, and else the last execution left decides. -/
structure Redecided (id : JobInstanceId) (definition : DefinitionIdentity)
    (reason : RepositoryError) (candidates : List PurgeCandidate) (before after : MemoryState) :
    Prop where
  gone : after.instancesById[id]? = none ↔ spared before candidates id = []
  unknown : after.instancesById[id]? = none → ∀ supply upgrade,
    createJobExecution supply id definition upgrade after = .error (.jobInstanceNotFound id)
  last : after.instancesById[id]? ≠ none → ∀ supply upgrade,
    (createJobExecution supply id definition upgrade after = .error reason ↔
      ∃ row, lastSpared before candidates id = some row ∧ refusal id row.status = some reason)

private theorem redecides {definition : DefinitionIdentity} {row : JobInstance}
    (found : state.instancesById[id]? = some row)
    (defined : Defined state row.key.jobName definition)
    (lists : state.jobExecutionsByInstance[id]? = some listed) (occupied : listed ≠ [])
    {reason : RepositoryError} (settled : Settled id reason) :
    Redecided id definition reason candidates state (purged state candidates) := by
  have standing := @instance_purged _ _ candidates _ _ found lists occupied
  refine ⟨?_, fun gone supply upgrade => createJobExecution_unknown gone, ?_⟩
  · rw [standing]
    split
    · rename_i cleared
      simp [cleared]
    · rename_i left
      simp [left]
  · intro stays supply upgrade
    have left : spared state candidates id ≠ [] := fun cleared =>
      stays (standing.trans (if_pos cleared))
    rw [createJobExecution_settled settled, latest_purged lists left]
    constructor
    · rintro ⟨_, _, _, latest, same, refused⟩
      exact ⟨latest, Except.ok.inj same, refused⟩
    · rintro ⟨latest, last, refused⟩
      exact ⟨row, standing.trans (if_neg left), defined.congr (definitions_purged candidates state),
        latest, congrArg _ last, refused⟩

private theorem error_of_map {ε α β : Type} {answer : Except ε α} {change : α → β} {failure : ε}
    (failed : answer.map change = .error failure) : answer = .error failure := by
  cases answer with
  | error other => exact congrArg _ (Except.error.inj failed)
  | ok value => cases failed

/-- The first attempt fails, the second one completes. -/
def secondCompleted : List Event :=
  firstFailed ++ secondLaunched ++ unitEvents 3
    [(⟨none, none, none, 0, 0⟩, .transitionJobExecution 3 .initial
        (.new .started 0)),
      (⟨none, none, none, 0, 0⟩, .transitionJobExecution 3 1
        (.new .completed 0))]

/-- What the two attempts leave. -/
def completedState : MemoryState := (World.new.run blindReader secondCompleted).committed

def purgeCompleted : PurgePlanRequest := purgeNightly .completed (Eq.refl true)

/-- The plan of a request, two hours later. -/
def planLater (request : PurgePlanRequest) : PurgePlan :=
  .new request (purgeSurvey completedState request (2 * 3600 * 10 ^ 9))

private theorem completed_refused :
    createJobExecution (supplyOf 1) 1 nightlyDefinition none completedState =
      .error (.completedInstance 1) :=
  error_of_map (by decide +kernel :
    (createJobExecution (supplyOf 1) 1 nightlyDefinition none completedState).map
      (fun _ => ()) = _)

private theorem planLater_applies (request : PurgePlanRequest) :
    applyPurge (planLater request) completedState =
      .ok (purgeCounts completedState (planLater request).candidates,
        purged completedState (planLater request).candidates) := by
  have empty : completedState.forkLineages.toList = [] := by decide +kernel
  have unforked : ∀ candidate, forkOrphaned completedState candidate = false := by
    intro candidate
    unfold forkOrphaned
    rw [empty]
    rfl
  refine (applyPurge_checked fun _ member => (chosen_of_mem member).checked
    (Journaled.run_follows blindReader secondCompleted).filed.1).trans (if_neg fun forked => ?_)
  obtain ⟨candidate, _, orphaned⟩ := List.any_eq_true.mp forked
  exact Bool.false_ne_true ((unforked candidate).symm.trans orphaned)

end Standing

section Main

variable {candidates : List PurgeCandidate}

/-- The executions of an instance that a purge leaves. -/
def remaining (state : MemoryState) (candidates : List PurgeCandidate) (id : JobInstanceId) :
    List JobExecutionId :=
  (state.jobExecutionsByInstance[id]?.getD []).filter (· ∉ candidates.map (·.jobExecutionId))

/-- Of a list the candidates go, whatever instance they name. -/
private theorem spared_eq (placed : Placed state) (addressed : Addressed state candidates)
    {listed : List JobExecutionId} (lists : state.jobExecutionsByInstance[id]? = some listed) :
    spared state candidates id = remaining state candidates id := by
  unfold spared remaining
  rw [lists]
  refine List.filter_congr fun execution member => decide_eq_decide.mpr ?_
  simp only [List.mem_map, not_exists, not_and]
  refine forall₂_congr fun candidate among => ⟨fun differs same => ?_, fun differs _ => differs⟩
  -- the candidate is listed under the one instance that owns its execution
  obtain ⟨others, lists', member'⟩ := addressed.listed candidate among
  obtain ⟨row, stored⟩ := mem_iff_lookup.mp (addressed.stored candidate among)
  have owned := placed.owned _ others lists' _ member' row stored
  have owned' := placed.owned _ listed lists _ (same ▸ member) row stored
  exact differs (owned.symm.trans owned') same

/-- The last execution left decides on the next launch; without one the instance is gone. -/
structure Reopens (id : JobInstanceId) (definition : DefinitionIdentity)
    (left : List JobExecutionId) (before after : MemoryState) : Prop where
  gone : left = [] → ∀ supply upgrade,
    createJobExecution supply id definition upgrade after = .error (.jobInstanceNotFound id)
  last : ∀ execution, left.getLast? = some execution → ∀ supply upgrade reason,
    Settled id reason →
      (createJobExecution supply id definition upgrade after = .error reason ↔
        ∃ row, before.jobExecutions[execution]? = some row ∧ refusal id row.status = some reason)

/-- A purge of some of the executions an instance lists. -/
private theorem reopens (placed : Placed state) (addressed : Addressed state candidates)
    {definition : DefinitionIdentity} {row : JobInstance}
    (found : state.instancesById[id]? = some row)
    (defined : Defined state row.key.jobName definition)
    {listed : List JobExecutionId} (lists : state.jobExecutionsByInstance[id]? = some listed)
    (occupied : listed ≠ []) :
    Reopens id definition (remaining state candidates id) state (purged state candidates) := by
  have redecided {reason : RepositoryError} (settled : Settled id reason) :=
    @redecides state id candidates listed definition row found defined lists occupied reason settled
  have same := spared_eq placed addressed lists
  refine ⟨fun cleared supply upgrade => ?_, fun execution last supply upgrade reason settled => ?_⟩
  · have known := @redecided (.completedInstance id) (.inl rfl)
    exact known.unknown (known.gone.mpr (same.trans cleared)) supply upgrade
  · have kept : spared state candidates id ≠ [] := by
      rw [same]
      intro cleared
      rw [cleared] at last
      cases last
    have outside : execution ∉ candidates.map (·.jobExecutionId) :=
      of_decide_eq_true (List.mem_filter.mp (List.mem_of_getLast? last)).2
    have row_left : lastSpared state candidates id = state.jobExecutions[execution]? := by
      unfold lastSpared
      rw [same, last, Option.bind_some, if_neg outside]
    rw [(redecided settled).last (fun gone => kept ((redecided settled).gone.mp gone)), row_left]

/-- A launch that is refused for finished work is decided anew by what a purge leaves. -/
theorem purge_reopens (reader : DefinitionReader) (events : List Event) (request : PurgePlanRequest)
    (now : SystemTime) (once : (events.flatMap Event.ids).Nodup) (state : MemoryState)
    (reached : (World.new.run reader events).committed = state) (supply : Supply)
    (id : JobInstanceId) (definition : DefinitionIdentity)
    (upgrade : Option DefinitionUpgradeExecution) (reason : RepositoryError)
    (settled : Settled id reason)
    (refused : createJobExecution supply id definition upgrade state = .error reason)
    (counts : PurgeCounts) (after : MemoryState)
    (applied : applyPurge (.new request (purgeSurvey state request now)) state =
      .ok (counts, after)) :
    Reopens id definition (remaining state (purgeSurvey state request now).candidates id)
      state after := by
  subst reached
  have placed := placed_committed reader events once
  have keyed := (Journaled.run_follows reader events).filed.1
  obtain ⟨row, found, defined, latest, current, _⟩ := (createJobExecution_settled settled).mp refused
  obtain ⟨listed, lists, occupied⟩ := listed_of_latest current
  obtain ⟨rfl, _⟩ := applyPurge_effect applied
  exact reopens placed (survey_addressed keyed placed) found defined lists occupied

/-- Once the completed attempt is purged, the failed one decides, and it allows a restart. -/
theorem purge_reopens_completed :
    let candidates := (planLater purgeCompleted).candidates
    createJobExecution (supplyOf 1) 1 nightlyDefinition none
      completedState = .error (.completedInstance 1) ∧
      remaining completedState candidates 1 = [2] ∧
      (createJobExecution (supplyOf 1) 1 nightlyDefinition none
        (purged completedState candidates)).isOk ∧
      Reopens 1 nightlyDefinition
        (remaining completedState candidates 1) completedState (purged completedState candidates) := by
  intro candidates
  have once : (secondCompleted.flatMap Event.ids).Nodup := by decide +kernel
  exact ⟨completed_refused, by decide +kernel, by decide +kernel,
    purge_reopens blindReader secondCompleted purgeCompleted _ once completedState rfl _ _ _ _ _
      (.inl rfl) completed_refused _ _ (planLater_applies purgeCompleted)⟩

end Main

end OxideBatch.Repository
