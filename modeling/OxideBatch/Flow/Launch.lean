import OxideBatch.Repository.Instances
import OxideBatch.Flow.Base
import OxideBatch.Plan.Base

/-! The launch of an attempt: how the launcher creates its job execution, and the
numbers both sides give it. -/

namespace OxideBatch.Flow

open OxideBatch.Core OxideBatch.Plan OxideBatch.Repository Program
open Std (ExtTreeMap ExtTreeSet)
open Tables

section Launcher

/-- Work in one unit of the launcher. An error drops the unit. -/
abbrev LaunchM := StateT MemoryState (Except FlowRuntimeError)

/-- An operation of the repository in a unit of the launcher. -/
def inUnit (operation : StagedM α) : LaunchM α := fun state =>
  (operation state).mapError .repository

/-- `job_executions`: the attempts of an instance. -/
def jobExecutions (instanceId : JobInstanceId) : LaunchM (List JobExecution) := do
  let state ← get
  inUnit (ensure (state.instancesById.contains instanceId) (.jobInstanceNotFound instanceId))
  pure (state.executionsOf instanceId)

def ensurePriorStepCanBeReused (instanceId : JobInstanceId) (nodeId : NodeId)
    (controls : StartControls) : LaunchM Unit := do
  if controls.restartPolicy ≠ .notRestartable then pure ()
  else
    let state ← get
    match ← inUnit (latestFlowStepSnapshot state instanceId nodeId) with
    | none => pure ()
    | some history =>
      if history.execution.status = .completed && !controls.allowStartIfComplete then pure ()
      else throw (.nonRestartableStep instanceId nodeId)

/-- The steps of a node whose restart the plan decides. -/
def restartSteps : FlowNode FlowGraph → List (NodeId × StartControls)
  | .step node => [(node.id, node.start)]
  | .customLeaf node => [(node.id, node.start)]
  | .partitionedStep node => [(node.id, node.start)]
  | .split node => (node.branches.flatMap (·.steps)).map fun step => (step.id, step.start)
  | _ => []

def ensurePlanRestartAllowed (instanceId : JobInstanceId)
    (plan : CompiledExecutionPlan DefinitionIdentity) : LaunchM Unit :=
  (plan.nodes.toList.flatMap fun entry => restartSteps entry.2).forM fun step =>
    ensurePriorStepCanBeReused instanceId step.1 step.2

/-- What a launch is for. -/
structure LaunchRequest where
  key : JobInstanceKey
  plan : CompiledExecutionPlan DefinitionIdentity
  parameters : JobParameters
  upgrade : Option DefinitionUpgradeExecution

/-- A restart is allowed by the job and by each of its steps. -/
def ensureRestartAllowed (request : LaunchRequest) (instanceId : JobInstanceId)
    (prior : List JobExecution) : LaunchM Unit :=
  if prior.getLast?.any fun last => last.status = .failed || last.status = .stopped then
    if request.plan.jobRestartPolicy = .notRestartable then throw (.nonRestartableJob instanceId)
    else ensurePlanRestartAllowed instanceId request.plan
  else pure ()

/-- The execution a launch creates; the parameters go along where scoped components may
read them. -/
def createExecution (supply : Supply) (request : LaunchRequest) (instanceId : JobInstanceId) :
    StagedM JobExecution :=
  let parameters := if request.plan.scopedComponents.isEmpty then none else some request.parameters
  match request.upgrade with
  | some upgrade => createJobExecutionWithUpgrade supply instanceId upgrade parameters
  | none => createJobExecutionWithDefinition supply instanceId request.plan.definition parameters

/-- The owner of executions under control claims a new one. -/
def claimOwner (control : Option OwnerToken) (claimedAt : SystemTime) (created : JobExecution) :
    LaunchM JobExecution :=
  match control with
  | some owner => inUnit (claimExecutionOwner created.id created.version owner claimedAt)
  | none => pure created

/-- The unit of `FlowLauncher::create_job_execution`: the instance, the execution, and
the attempt it is. `control` is the owner of executions under control. -/
def createJobExecutionUnit (control : Option OwnerToken) (supply : Supply) (claimedAt : SystemTime)
    (request : LaunchRequest) : LaunchM (JobInstance × JobExecution × Nat) := do
  let jobInstance ← inUnit (selectOrCreateJobInstance supply request.key)
  let prior ← jobExecutions jobInstance.id
  ensureRestartAllowed request jobInstance.id prior
  let created ← inUnit (createExecution supply request jobInstance.id)
  let execution ← claimOwner control claimedAt created
  let attempts ← jobExecutions jobInstance.id
  if attempts.length = 0 ∨ attempts.length ≥ 2 ^ 64 then throw .countExhausted
  else pure (jobInstance, execution, attempts.length)

/-- `FlowLauncher::create_job_execution` from the state its unit begins at, committed over
the state it finds then. -/
def createJobExecution (control : Option OwnerToken) (supply : Supply) (claimedAt : SystemTime)
    (request : LaunchRequest) (begun current : MemoryState) :
    Except FlowRuntimeError ((JobInstance × JobExecution × Nat) × MemoryState) := do
  let (answer, staged) ← createJobExecutionUnit control supply claimedAt request begun
  let committed ← ({ begun.beginUnit with staged }.commit current).mapError .repository
  pure (answer, committed)

end Launcher

section Numbers

/-- The attempts of an instance are numbered as they are listed, and its counter is the
number of the last. -/
structure Numbered (tables : CoreTables) : Prop where
  indexed : Indexed tables
  counted : ∀ (id : JobInstanceId) (listed : List JobExecutionId),
    tables.jobExecutionsByInstance[id]? = some listed →
      tables.nextExecutionAttemptByInstance[id]?.getD 0 = listed.length
  numbered : ∀ (id : JobInstanceId) (listed : List JobExecutionId),
    tables.jobExecutionsByInstance[id]? = some listed → ∀ (index : Nat) (execution : JobExecutionId),
      listed[index]? = some execution → tables.executionAttempts[execution]? = some (index + 1)
  uncounted : ∀ id ∉ tables.instancesById, tables.nextExecutionAttemptByInstance[id]? = none

variable {reader : DefinitionReader} {operation : Operation} {state state' : MemoryState}

theorem numbered_empty : Numbered MemoryState.empty.core where
  indexed := indexed_empty
  counted _ _ found := by simp [MemoryState.core, MemoryState.empty] at found
  numbered _ _ found := by simp [MemoryState.core, MemoryState.empty] at found
  uncounted _ _ := by simp [MemoryState.core, MemoryState.empty]

theorem Numbered.of_tables {tables tables' : CoreTables} (numbered : Numbered tables)
    (indexed : Indexed tables') (rows : tables'.instancesById = tables.instancesById)
    (lists : tables'.jobExecutionsByInstance = tables.jobExecutionsByInstance)
    (attempts : tables'.executionAttempts = tables.executionAttempts)
    (counters : tables'.nextExecutionAttemptByInstance = tables.nextExecutionAttemptByInstance) :
    Numbered tables' := by
  refine ⟨indexed, ?_, ?_, ?_⟩
  · rw [lists, counters]
    exact numbered.counted
  · rw [lists, attempts]
    exact numbered.numbered
  · rw [rows, counters]
    exact numbered.uncounted

theorem Numbered.launched {supply : Supply} {instanceId : JobInstanceId}
    {definition : DefinitionIdentity} {upgraded : Bool} {execution : JobExecution}
    (numbered : Numbered state.core)
    (launched : Launched supply instanceId definition upgraded state execution state') :
    Numbered state'.core := by
  have indexed := launched.indexed numbered.indexed
  obtain ⟨listed, _, _, _, found, _, _, _, core⟩ := launched.tables
  have counter : state.nextExecutionAttemptByInstance[instanceId]?.getD 0 = listed.length :=
    numbered.counted instanceId listed found
  -- an execution that is listed already is not the new one
  have other : ∀ (id : JobInstanceId) (held : List JobExecutionId),
      state.jobExecutionsByInstance[id]? = some held → ∀ earlier ∈ held,
        execution.id ≠ earlier := by
    intro id held lists earlier member same
    obtain ⟨row, stored, _⟩ := numbered.indexed.listed.stored id held lists earlier member
    exact launched.unused (same ▸ mem_of_lookup stored)
  rw [core] at indexed ⊢
  refine ⟨indexed, ?_, ?_, ?_⟩
  · intro id held lists
    change (state.nextExecutionAttemptByInstance.insert instanceId _)[id]?.getD 0 = _
    rcases lookup_insert_cases lists with ⟨rfl, rfl⟩ | ⟨different, before⟩
    · simp [lookup_insert, counter]
    · rw [lookup_insert, if_neg different]
      exact numbered.counted id held before
  · intro id held lists index earlier at_
    change (state.executionAttempts.insert execution.id _)[earlier]? = _
    rcases lookup_insert_cases lists with ⟨rfl, rfl⟩ | ⟨different, before⟩
    · by_cases last : index = listed.length
      · subst last
        obtain rfl : execution.id = earlier := by simpa using at_
        rw [lookup_insert, if_pos rfl, counter]
      · have within : listed[index]? = some earlier := by
          rw [List.getElem?_append] at at_
          split at at_
          · exact at_
          · rename_i beyond
            have positive : index - listed.length ≠ 0 := by omega
            simp [List.getElem?_singleton, positive] at at_
        rw [lookup_insert, if_neg (other _ listed found earlier (List.mem_of_getElem? within))]
        exact numbered.numbered _ listed found index earlier within
    · rw [lookup_insert, if_neg (other id held before earlier (List.mem_of_getElem? at_))]
      exact numbered.numbered id held before index earlier at_
  · intro id absent
    change (state.nextExecutionAttemptByInstance.insert instanceId _)[id]? = none
    have different : instanceId ≠ id := fun same => absent (same ▸ launched.owner)
    rw [lookup_insert, if_neg different]
    exact numbered.uncounted id absent

theorem Numbered.entered {tables : CoreTables} (numbered : Numbered tables) {added : JobInstance}
    (free : tables.instancesByKey[added.key]? = none) (unused : added.id ∉ tables.instancesById) :
    Numbered { tables with
      instancesByKey := tables.instancesByKey.insert added.key added.id
      instancesById := tables.instancesById.insert added.id added
      jobExecutionsByInstance := tables.jobExecutionsByInstance.insert added.id [] } := by
  refine ⟨numbered.indexed.entered free unused, ?_, ?_, ?_⟩
  · intro id listed lists
    rcases lookup_insert_cases lists with ⟨rfl, rfl⟩ | ⟨_, before⟩
    · simp [numbered.uncounted _ unused]
    · exact numbered.counted id listed before
  · intro id listed lists index execution found
    rcases lookup_insert_cases lists with ⟨rfl, rfl⟩ | ⟨_, before⟩
    · simp at found
    · exact numbered.numbered id listed before index execution found
  · intro id absent
    refine numbered.uncounted id fun member => absent ?_
    exact mem_insert_iff.mpr (.inr member)

theorem Numbered.purged {candidates : List PurgeCandidate} (numbered : Numbered state.core)
    (whole : WholePurged candidates state state') : Numbered state'.core := by
  refine ⟨whole.indexed numbered.indexed, ?_, ?_, ?_⟩
  · intro id listed lists
    by_cases taken : Taken candidates id
    · cases (whole.gone id taken).1.symm.trans lists
    · obtain ⟨same, _, counter⟩ := whole.kept id taken
      change state'.nextExecutionAttemptByInstance[id]?.getD 0 = _
      rw [counter]
      exact numbered.counted id listed (same.symm.trans lists)
  · intro id listed lists index execution found
    by_cases taken : Taken candidates id
    · cases (whole.gone id taken).1.symm.trans lists
    · have before := (whole.kept id taken).1.symm.trans lists
      obtain ⟨row, stored, owner⟩ := numbered.indexed.listed.stored id listed before execution
        (List.mem_of_getElem? found)
      exact (whole.others execution row stored (owner.symm ▸ taken)).1.trans
        (numbered.numbered id listed before index execution found)
  · intro id absent
    by_cases taken : Taken candidates id
    · exact (whole.gone id taken).2.2
    · obtain ⟨_, same, counter⟩ := whole.kept id taken
      refine counter.trans (numbered.uncounted id fun member => absent ?_)
      rw [mem_iff_lookup] at member ⊢
      obtain ⟨row, stored⟩ := member
      exact ⟨row, same.trans stored⟩

/-- Only a purge that leaves a part of an instance breaks the numbers. -/
theorem Numbered.change (change : Change reader operation state state')
    (allowed : operation.guarded = true → operation.TakesWholeInstances state)
    (numbered : Numbered state.core) : Numbered state'.core := by
  have indexed := change.indexed allowed numbered.indexed
  cases change with
  | quiet same => exact same ▸ numbered
  | entered added free unused core => exact core ▸ numbered.entered free unused
  | launched made upgrades => exact numbered.launched made
  | moved rows =>
    have core := rows.core
    rw [core] at indexed ⊢
    exact numbered.of_tables indexed rfl rfl rfl rfl
  | stepEntered made =>
    obtain ⟨_, _, _, _, _, core⟩ := made.tables
    rw [core] at indexed ⊢
    exact numbered.of_tables indexed rfl rfl rfl rfl
  | decided decision unused core =>
    rw [core] at indexed ⊢
    exact numbered.of_tables indexed rfl rfl rfl rfl
  | repeated same accepted =>
    rw [repeatRecorded_core accepted] at indexed ⊢
    exact numbered.of_tables indexed rfl rfl rfl rfl
  | parametersStored unset core =>
    rw [core] at indexed ⊢
    exact numbered.of_tables indexed rfl rfl rfl rfl
  | linkCreated free selected unobserved made =>
    subst made
    exact numbered.of_tables indexed rfl rfl rfl rfl
  | linkContinued free continued made =>
    subst made
    exact numbered.of_tables indexed rfl rfl rfl rfl
  | observed linked stored ended core =>
    rw [core] at indexed ⊢
    exact numbered.of_tables indexed rfl rfl rfl rfl
  | purged same checked =>
    subst same
    exact numbered.purged (purged_whole numbered.indexed (allowed rfl _ rfl) fun candidate member =>
      checkCandidate_ok (checked candidate member))

private theorem follows_numbered {entries : List Entry} (follows : Follows reader entries state)
    (whole : ∀ entry ∈ entries, entry.operation.TakesWholeInstances entry.before) :
    Keyed state ∧ Numbered state.core :=
  follows.invariant (fun state operation => operation.TakesWholeInstances state)
    numbered_empty (fun change allowed _ numbered => numbered.change change allowed) whole

end Numbers

section Agreement

variable {reader : DefinitionReader} {state state' : MemoryState}

@[simp] theorem inUnit_yields {α : Type} {operation : StagedM α} {answer : α} :
    inUnit operation state = .ok (answer, state') ↔ operation state = .ok (answer, state') :=
  mapError_ok

private theorem jobExecutions_yields {instanceId : JobInstanceId} {answer : List JobExecution}
    (done : jobExecutions instanceId state = .ok (answer, state')) :
    state' = state ∧ answer = state.executionsOf instanceId := by
  simp only [jobExecutions, bind_yields, get_yields, inUnit_yields, lift_yields, pure_yields,
    existsAndEq, and_true, true_and] at done
  obtain ⟨_, _, rfl, rfl⟩ := done
  exact ⟨rfl, rfl⟩

private theorem inUnit_lift_keeps {α : Type} (answer : Except RepositoryError α) :
    Keeps Eq (inUnit (liftM answer)) := by
  intro state value state' done
  exact (lift_yields.mp (inUnit_yields.mp done)).2

private theorem ensurePriorStepCanBeReused_keeps {instanceId : JobInstanceId} {nodeId : NodeId}
    {controls : StartControls} : Keeps Eq (ensurePriorStepCanBeReused instanceId nodeId controls) := by
  unfold ensurePriorStepCanBeReused
  split
  · exact Keeps.pure (fun _ => rfl) _
  · refine Keeps.bind Eq.trans (Keeps.get fun _ => rfl) fun before => ?_
    refine Keeps.bind Eq.trans (inUnit_lift_keeps _) fun history => ?_
    split
    · exact Keeps.pure (fun _ => rfl) _
    · split
      · exact Keeps.pure (fun _ => rfl) _
      · exact Keeps.throw _

private theorem ensureRestartAllowed_keeps {request : LaunchRequest} {instanceId : JobInstanceId}
    {prior : List JobExecution} : Keeps Eq (ensureRestartAllowed request instanceId prior) := by
  unfold ensureRestartAllowed
  split
  · split
    · exact Keeps.throw _
    · exact Keeps.forM (fun _ => rfl) Eq.trans (fun _ => ensurePriorStepCanBeReused_keeps) _
  · exact Keeps.pure (fun _ => rfl) _

/-- The execution a launch creates is the next attempt of its instance. -/
private theorem createExecution_effect {supply : Supply} {request : LaunchRequest}
    {instanceId : JobInstanceId} {execution : JobExecution}
    (done : createExecution supply request instanceId state = .ok (execution, state')) :
    ∃ definition upgraded, Launched supply instanceId definition upgraded state execution state' := by
  unfold createExecution at done
  cases upgrade : request.upgrade with
  | some upgrade =>
    simp only [upgrade] at done
    exact ⟨_, _, createJobExecutionWithUpgrade_effect done⟩
  | none =>
    simp only [upgrade] at done
    exact ⟨_, _, createJobExecutionWithDefinition_effect done⟩

/-- A claim answers the row it finds and leaves the core tables as they are. -/
private theorem claimOwner_effect {control : Option OwnerToken} {claimedAt : SystemTime}
    {created execution : JobExecution} (stored : state.jobExecutions[created.id]? = some created)
    (done : claimOwner control claimedAt created state = .ok (execution, state')) :
    SameCore state state' ∧ execution = created := by
  cases control with
  | none =>
    obtain ⟨rfl, rfl⟩ := pure_yields.mp done
    exact ⟨rfl, rfl⟩
  | some owner =>
    have claimed := inUnit_yields.mp done
    refine ⟨claimExecutionOwner_quiet _ _ _ claimed, ?_⟩
    simp only [claimExecutionOwner, bind_yields, get_yields, lift_yields, Repository.require_ok, modify_yields,
      pure_yields, existsAndEq, and_true, true_and] at claimed
    obtain ⟨_, _, _, _, found, _⟩ := claimed
    exact Option.some.inj (found.symm.trans stored)

/-- The attempts of an instance are as many as it lists. -/
private theorem executionsOf_length {id : JobInstanceId} {listed : List JobExecutionId}
    (indexed : Indexed state.core) (lists : state.jobExecutionsByInstance[id]? = some listed) :
    (state.executionsOf id).length = listed.length := by
  unfold MemoryState.executionsOf
  rw [lists, Option.getD_some]
  have stored : ∀ execution ∈ listed, (state.jobExecutions[execution]?).isSome = true := by
    intro execution member
    obtain ⟨row, found, _⟩ := indexed.listed.stored id listed lists execution member
    exact Option.isSome_iff_exists.mpr ⟨row, found⟩
  clear lists
  induction listed with
  | nil => rfl
  | cons first rest ih =>
    obtain ⟨row, found⟩ := Option.isSome_iff_exists.mp (stored first (by simp))
    rw [List.filterMap_cons_some found, List.length_cons, List.length_cons,
      ih fun execution member => stored execution (List.mem_cons_of_mem _ member)]

/-- What the unit of a launch leaves: a numbered state in which the answer is the number
of the new execution, the last of its instance. -/
private theorem createJobExecutionUnit_numbers {control : Option OwnerToken} {supply : Supply}
    {claimedAt : SystemTime} {request : LaunchRequest} {jobInstance : JobInstance}
    {execution : JobExecution} {attempt : Nat} (keyed : Keyed state)
    (numbered : Numbered state.core)
    (done : createJobExecutionUnit control supply claimedAt request state =
      .ok ((jobInstance, execution, attempt), state')) :
    Numbered state'.core ∧ ∃ listed, state'.jobExecutionsByInstance[jobInstance.id]? =
      some (listed ++ [execution.id]) ∧ attempt = listed.length + 1 := by
  simp only [createJobExecutionUnit, bind_yields, inUnit_yields] at done
  obtain ⟨owner, first, selected, prior, second, listing, _, third, allowed, created, fourth, made,
    claimed, fifth, claims, attempts, sixth, recounted, done⟩ := done
  obtain ⟨rfl, _⟩ := jobExecutions_yields listing
  obtain rfl := ensureRestartAllowed_keeps _ _ _ allowed
  obtain ⟨definition, upgraded, launched⟩ := createExecution_effect made
  -- the instance may be new
  have before : Numbered second.core := by
    rcases selectOrCreateJobInstance_effect selected with ⟨rfl, _⟩ | ⟨same, free, unused, core⟩
    · exact numbered
    · rw [← same] at free core
      exact core ▸ numbered.entered free unused
  have after := before.launched launched
  obtain ⟨listed, _, _, _, _, _, _, _, core⟩ := launched.tables
  have rows : fourth.jobExecutions = _ := congrArg CoreTables.jobExecutions core
  have lists : fourth.jobExecutionsByInstance = _ :=
    congrArg CoreTables.jobExecutionsByInstance core
  obtain ⟨same, rfl⟩ := claimOwner_effect (by rw [rows, lookup_insert, if_pos rfl]) claims
  obtain ⟨rfl, rfl⟩ := jobExecutions_yields recounted
  split at done
  · cases done
  · obtain ⟨answer, rfl⟩ := pure_yields.mp done
    cases answer
    have pushed : sixth.jobExecutionsByInstance[jobInstance.id]? = some (listed ++ [execution.id]) := by
      refine (congrArg (·[jobInstance.id]?)
        (congrArg CoreTables.jobExecutionsByInstance same)).trans ?_
      change fourth.jobExecutionsByInstance[jobInstance.id]? = _
      rw [lists, lookup_insert, if_pos rfl]
    have numbers : Numbered sixth.core := same ▸ after
    refine ⟨numbers, listed, pushed, ?_⟩
    rw [executionsOf_length numbers.indexed pushed, List.length_append]
    rfl

/-- The number a launch answers is the one recorded, and the greatest of the instance. -/
def AttemptRecorded (jobInstance : JobInstance) (execution : JobExecution) (attempt : Nat)
    (committed : MemoryState) : Prop :=
  committed.executionAttempts[execution.id]? = some attempt ∧
    ∀ listed : List JobExecutionId,
      committed.jobExecutionsByInstance[jobInstance.id]? = some listed →
        ∀ other ∈ listed, other ≠ execution.id →
          ∃ earlier, committed.executionAttempts[other]? = some earlier ∧ earlier < attempt

/-- Launcher and repository agree after every run whose purges take whole instances. -/
theorem launch_attempts_agree (reader : DefinitionReader) (events : List Event)
    (whole : ∀ entry ∈ (Journaled.new.run reader events).committed,
      entry.operation.TakesWholeInstances entry.before)
    (control : Option OwnerToken) (supply : Supply) (claimedAt : SystemTime)
    (request : LaunchRequest) (current committed : MemoryState) (jobInstance : JobInstance)
    (execution : JobExecution) (attempt : Nat)
    (launched : createJobExecution control supply claimedAt request
      (World.new.run reader events).committed current =
        .ok ((jobInstance, execution, attempt), committed)) :
    AttemptRecorded jobInstance execution attempt committed := by
  obtain ⟨keyed, numbered⟩ := follows_numbered (Journaled.run_follows reader events) whole
  simp only [createJobExecution, bind_ok, mapError_ok, pure_ok, Prod.mk.injEq] at launched
  obtain ⟨⟨answer, staged⟩, created, renewed, committing, rfl, rfl⟩ := launched
  obtain ⟨numbers, listed, lists, rfl⟩ := createJobExecutionUnit_numbers keyed numbered created
  obtain ⟨revision, rfl⟩ := Journaled.commit_revises committing
  constructor
  · exact numbers.numbered _ _ lists listed.length execution.id (by simp)
  · intro found lists' other member different
    obtain rfl := Option.some.inj (lists.symm.trans lists')
    have earlier : other ∈ listed := by simpa [different] using member
    obtain ⟨index, within, rfl⟩ := List.getElem_of_mem earlier
    refine ⟨index + 1, numbers.numbered _ _ lists index listed[index] ?_, by omega⟩
    rw [List.getElem?_append_left within, List.getElem?_eq_getElem within]

end Agreement

section Instances

/-- The plan of a single step. -/
def nightlyPlan : CompiledExecutionPlan DefinitionIdentity :=
  let load : NodeId := ⟨"load", Eq.refl true⟩
  { definition := nightlyDefinition
    jobRestartPolicy := .restartable
    parameterIncrementer := none
    scopedComponents := ∅
    entry := load
    rootScope := ⟨load, (∅ : ExtTreeSet NodeId).insert load⟩
    nodes := (∅ : NodeMap (FlowNode FlowGraph)).insert load (.step
      { id := load, stepName := load, components := .tasklet ⟨"v1", Eq.refl true⟩,
        start := ⟨StartLimit.unrestricted, false, .restartable⟩,
        fault := none, listeners := [], repeatDefinition := none })
    transitions := (∅ : Edges).insert load [⟨load, ⟨"*", Eq.refl true⟩, .terminal .complete⟩]
    splitBranchScopes := ∅
    nestedScopes := ∅
    decisionSequences := [(load, 1)] }

def nightlyRequest : LaunchRequest := ⟨⟨⟨"nightly", Eq.refl true⟩, []⟩, nightlyPlan, ∅, none⟩

/-- An attempt of the first instance that fails. -/
def failedAttempt (number : Nat) : List Event :=
  unitEvents number
    [(supplyOf number, .selectOrCreateJobInstance nightlyRequest.key),
      (supplyOf number, .createJobExecution 1 nightlyDefinition none),
      (supplyOf number, .transitionJobExecution (.numbered number) .initial
        (.failed 0 ⟨.userComponent, 0⟩))]

private theorem failed_isFinished :
    ∀ status : BatchStatus, status ∈ (∅ : ExtTreeSet BatchStatus).insert .failed →
      status.isFinished = true := by
  simp [BatchStatus.isFinished]

private theorem failed_some : (∅ : ExtTreeSet BatchStatus).insert .failed ≠ ∅ :=
  ExtTreeSet.insert_ne_empty

/-- A plan for the first of the attempts only. -/
def firstAttemptPlan : PurgePlan where
  request :=
    { jobName := ⟨"nightly", Eq.refl true⟩
      statuses := ⟨(∅ : ExtTreeSet BatchStatus).insert .failed, failed_isFinished, failed_some⟩
      minimumAge := minPurgeAge
      batch := ⟨1, by decide⟩
      aged := le_rfl }
  candidates := [⟨1, 1, 1⟩]
  counts := ⟨0, 0, 0, 0, 0, 1, 0⟩

/-- Two attempts fail, and the first of them is purged. -/
def purgedFirstAttempt : List Event :=
  failedAttempt 1 ++ failedAttempt 2 ++
    unitEvents 3 [(supplyOf 3, .applyPurge firstAttemptPlan)]

/-- The third attempt behind a purge of the first is answered as the second. -/
theorem purged_attempt_misnumbered :
    ¬ ∀ (reader : DefinitionReader) (events : List Event) (control : Option OwnerToken)
      (supply : Supply) (claimedAt : SystemTime) (request : LaunchRequest)
      (current committed : MemoryState) (jobInstance : JobInstance) (execution : JobExecution)
      (attempt : Nat), createJobExecution control supply claimedAt request
        (World.new.run reader events).committed current =
          .ok ((jobInstance, execution, attempt), committed) →
      AttemptRecorded jobInstance execution attempt committed := by
  intro claimed
  have evaluated : ((createJobExecution none (supplyOf 3) 0 nightlyRequest
      (World.new.run blindReader purgedFirstAttempt).committed
      (World.new.run blindReader purgedFirstAttempt).committed).toOption.map fun result =>
        (result.1.2.2, result.2.executionAttempts[result.1.2.1.id]?)) = some (2, some 3) := by
    decide +kernel
  cases launched : createJobExecution none (supplyOf 3) 0 nightlyRequest
      (World.new.run blindReader purgedFirstAttempt).committed
      (World.new.run blindReader purgedFirstAttempt).committed with
  | error failure =>
    rw [launched] at evaluated
    cases evaluated
  | ok result =>
    obtain ⟨⟨jobInstance, execution, attempt⟩, committed⟩ := result
    rw [launched] at evaluated
    simp only [Except.toOption, Option.map_some, Option.some.injEq, Prod.mk.injEq] at evaluated
    have recorded := (claimed _ _ _ _ _ _ _ _ _ _ _ launched).1
    rw [evaluated.2, evaluated.1] at recorded
    cases recorded

/-- After two failed attempts of which none is purged, the third is answered as the third. -/
theorem third_attempt_agrees :
    ∃ jobInstance execution committed,
      createJobExecution none (supplyOf 3) 0 nightlyRequest
        (World.new.run blindReader (failedAttempt 1 ++
          failedAttempt 2)).committed
        (World.new.run blindReader (failedAttempt 1 ++
          failedAttempt 2)).committed = .ok ((jobInstance, execution, 3), committed) ∧
      AttemptRecorded jobInstance execution 3 committed := by
  have unpurged : (Journaled.new.run blindReader (failedAttempt 1 ++
      failedAttempt 2)).committed.all (!·.operation.purges) = true := by
    decide +kernel
  have evaluated : ((createJobExecution none (supplyOf 3) 0 nightlyRequest
      (World.new.run blindReader (failedAttempt 1 ++
        failedAttempt 2)).committed
      (World.new.run blindReader (failedAttempt 1 ++
        failedAttempt 2)).committed).toOption.map (·.1.2.2)) = some 3 := by
    decide +kernel
  cases launched : createJobExecution none (supplyOf 3) 0 nightlyRequest
      (World.new.run blindReader (failedAttempt 1 ++
        failedAttempt 2)).committed
      (World.new.run blindReader (failedAttempt 1 ++
        failedAttempt 2)).committed with
  | error failure =>
    rw [launched] at evaluated
    cases evaluated
  | ok result =>
    obtain ⟨⟨jobInstance, execution, attempt⟩, committed⟩ := result
    rw [launched] at evaluated
    obtain rfl : attempt = 3 := Option.some.inj evaluated
    refine ⟨jobInstance, execution, committed, rfl, ?_⟩
    refine launch_attempts_agree blindReader _ (fun entry member => ?_) _ _ _ _ _ _ _ _ _ launched
    exact Operation.takesWhole_of_purges (by simpa using List.all_eq_true.mp unpurged entry member)

end Instances

end OxideBatch.Flow
