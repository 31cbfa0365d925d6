import OxideBatch.Service.Retention
import OxideBatch.Repository.LaunchChecks

/-! Runs of retention calls over the in-memory repository, in any order of their units.
An operation identifier takes effect once; whether it is replayed to the request that
recorded it is up to its callers. -/

namespace OxideBatch.Service

open OxideBatch.Core OxideBatch.Plan OxideBatch.Repository OxideBatch.Lib Program Tables
open Std (ExtTreeMap)

section Records

variable {state state' : MemoryState}

private theorem retentionAsStr_injective : Function.Injective RetentionAction.asStr := by
  intro left right same
  cases left <;> cases right <;> first | rfl | simp [RetentionAction.asStr] at same

/-- The audit tables of the retention service. -/
def retentionTables (state : MemoryState) :
    ExtTreeMap RetentionActionId RetentionRecord ×
      ExtTreeMap (String × OperationId) RetentionActionId :=
  (state.retentionActions, state.retentionActionKeys)

private theorem removeStepExecutions_retention (state : MemoryState) (id : JobExecutionId) :
    retentionTables (removeStepExecutions state id) = retentionTables state := by
  unfold removeStepExecutions
  generalize state.stepExecutionsByJob[id]?.getD [] = steps
  have kept : ∀ (state : MemoryState),
      retentionTables (steps.foldl removeStepExecution state) = retentionTables state := by
    induction steps with
    | nil =>
      intro state
      rfl
    | cons step steps ih =>
      intro state
      exact ih (removeStepExecution state step)
  exact kept _

private theorem purgeCandidate_retention (state : MemoryState) (candidate : PurgeCandidate) :
    retentionTables (purgeCandidate state candidate) = retentionTables state := by
  unfold purgeCandidate
  exact removeStepExecutions_retention _ _

private theorem purgeInstance_retention (state : MemoryState) (id : JobInstanceId) :
    retentionTables (purgeInstance state id) = retentionTables state := by
  unfold purgeInstance
  split
  · split
    · rfl
    · rfl
  · rfl

/-- A purge removes no retention record. -/
private theorem purged_retention (state : MemoryState) (candidates : List PurgeCandidate) :
    retentionTables (purged state candidates) = retentionTables state := by
  have instances : ∀ (ids : List JobInstanceId) (state : MemoryState),
      retentionTables (ids.foldl purgeInstance state) = retentionTables state := by
    intro ids
    induction ids with
    | nil =>
      intro state
      rfl
    | cons id ids ih =>
      intro state
      rw [List.foldl_cons, ih, purgeInstance_retention]
  rw [purged, instances]
  induction candidates generalizing state with
  | nil => rfl
  | cons candidate candidates ih => rw [List.foldl_cons, ih, purgeCandidate_retention]

/-- An appended action: its key was free, its identifier unused. -/
structure RetentionAppended (draft : RetentionRecordDraft) (record : RetentionRecord)
    (state state' : MemoryState) : Prop where
  free : (draft.action.asStr, draft.operationId) ∉ state.retentionActionKeys
  unused : record.id ∉ state.retentionActions
  drafted : record.toRetentionRecordDraft = draft
  actions : state'.retentionActions = state.retentionActions.insert record.id record
  keys : state'.retentionActionKeys =
    state.retentionActionKeys.insert (draft.action.asStr, draft.operationId) record.id

private theorem appendRetentionAction_ok {draft : RetentionRecordDraft} {record : RetentionRecord}
    (done : appendRetentionAction draft state = .ok (record, state')) :
    RetentionAppended draft record state state' := by
  simp only [appendRetentionAction, bind_yields, get_yields, lift_yields, ensure_ok, not_contains,
    modify_yields, pure_yields] at done
  obtain ⟨_, _, ⟨rfl, rfl⟩, _, _, ⟨free, rfl⟩, id, _, ⟨next, rfl⟩, _, _, rfl, rfl, rfl⟩ := done
  exact ⟨free, nextId_unused next, rfl, rfl, rfl⟩

/-- Changes of other tables ahead of an append do not matter. -/
theorem RetentionAppended.of_tables {draft : RetentionRecordDraft} {record : RetentionRecord}
    {middle : MemoryState} (appended : RetentionAppended draft record middle state')
    (same : retentionTables middle = retentionTables state) :
    RetentionAppended draft record state state' := by
  obtain ⟨actions, keys⟩ := Prod.mk.inj same
  refine ⟨keys ▸ appended.free, actions ▸ appended.unused, appended.drafted, ?_, ?_⟩
  · rw [← actions]
    exact appended.actions
  · rw [← keys]
    exact appended.keys

private theorem placeInstanceHold_retention {id : JobInstanceId} {actor : ActorRef}
    {reason : ReasonCode}
    {placedAt : SystemTime} {hold : RetentionHold}
    (done : placeInstanceHold id actor reason placedAt state = .ok (hold, state')) :
    retentionTables state' = retentionTables state := by
  simp only [placeInstanceHold, bind_yields, get_yields, lift_yields, ensure_ok, modify_yields,
    pure_yields] at done
  obtain ⟨_, _, ⟨rfl, rfl⟩, _, _, ⟨_, rfl⟩, _, _, rfl, -, rfl⟩ := done
  rfl

private theorem releaseInstanceHold_retention {id : JobInstanceId} {hold : Option RetentionHold}
    (done : releaseInstanceHold id state = .ok (hold, state')) :
    retentionTables state' = retentionTables state := by
  simp only [releaseInstanceHold, bind_yields, get_yields, lift_yields, ensure_ok, modify_yields,
    pure_yields] at done
  obtain ⟨_, _, ⟨rfl, rfl⟩, _, _, ⟨_, rfl⟩, _, _, rfl, -, rfl⟩ := done
  rfl

private theorem applyPurge_retention {plan : PurgePlan} {counts : PurgeCounts}
    (done : Repository.applyPurge plan state = .ok (counts, state')) :
    retentionTables state' = retentionTables state := by
  simp only [Repository.applyPurge, bind_yields, get_yields, lift_yields, ensure_ok, modify_yields,
    pure_yields] at done
  obtain ⟨_, _, ⟨rfl, rfl⟩, _, _, checked, _, _, ⟨_, rfl⟩, _, _, rfl, -, rfl⟩ := done
  have unchanged : state = _ := Keeps.forM (fun _ => rfl) Eq.trans
    (fun candidate => Keeps.lift (fun _ => rfl) _) _ _ _ _ checked
  rw [← unchanged, purged_retention]

end Records

section Effects

variable {hash : List UInt8 → Digest} {appliedAt : SystemTime} {state staged : MemoryState}

/-- What the unit of a call adds to the audit tables is its request under its key. -/
private theorem effect_ok {call : RetentionCall} {report : RetentionReport}
    (done : call.effect hash appliedAt state = .ok (report, staged)) :
    ∃ draft, RetentionAppended draft report.record state staged ∧
      (draft.action, draft.operationId) = call.key ∧ requestOf report.record = call.request hash := by
  cases call with
  | placeHold operationId actor reason jobInstanceId =>
    simp only [RetentionCall.effect, holdUnit, bind_yields, pure_yields] at done
    obtain ⟨_, _, placed, _, _, ⟨rfl, rfl⟩, record, _, append, rfl, rfl⟩ := done
    have appended := (appendRetentionAction_ok append).of_tables (placeInstanceHold_retention placed)
    refine ⟨_, appended, rfl, ?_⟩
    rw [requestOf, appended.drafted]
    rfl
  | releaseHold operationId actor reason jobInstanceId =>
    simp only [RetentionCall.effect, holdUnit, bind_yields, pure_yields] at done
    obtain ⟨_, _, released, _, _, ⟨rfl, rfl⟩, record, _, append, rfl, rfl⟩ := done
    have appended :=
      (appendRetentionAction_ok append).of_tables (releaseInstanceHold_retention released)
    refine ⟨_, appended, rfl, ?_⟩
    rw [requestOf, appended.drafted]
    rfl
  | applyPurge operationId actor reason plan =>
    simp only [RetentionCall.effect, purgeUnit, bind_yields, pure_yields] at done
    obtain ⟨counts, _, purges, record, _, append, rfl, rfl⟩ := done
    have appended := (appendRetentionAction_ok append).of_tables (applyPurge_retention purges)
    refine ⟨_, appended, rfl, ?_⟩
    rw [requestOf, appended.drafted]
    rfl

end Effects

section Runs

/-- The action recorded under an operation. -/
def recordedAction (state : MemoryState) (key : RetentionAction × OperationId) :
    Option RetentionRecord :=
  findRetentionAction state key.1 key.2

/-- Whoever else commits: it records no retention action. -/
abbrev OtherService := Foreign fun state state' => retentionTables state' = retentionTables state

variable (hash : List UInt8 → Digest) (calls : Nat → RetentionCall) (clock : Nat → SystemTime)

/-- The calls ahead of a run, over the empty repository. -/
def retentionSite : Site MemoryState (Except RetentionError RetentionReport) :=
  .opened .empty fun caller => (calls caller).session hash (clock caller)

/-- The site behind the turns. -/
abbrev retentionRun (turns : List (Turn OtherService)) :
    Site MemoryState (Except RetentionError RetentionReport) :=
  (retentionSite hash calls clock).run memoryVersions Foreign.change turns

/-- What a call records: what it was asked for. -/
def Writes (caller : Nat) (record : RetentionRecord) : Prop :=
  requestOf record = (calls caller).request hash

/-- A commit of a call: the effect with its record. -/
structure CommitsEffect (caller : Nat) (before after : MemoryState) : Prop where
  appends : Appends recordedAction (calls caller).key (Writes hash calls caller) before after
  grounded : Grounded after.retentionActions after.retentionActionKeys
  effected : ∃ report staged, (calls caller).effect hash (clock caller) before = .ok (report, staged) ∧
    after = memoryVersions.advance staged before

/-- The audit tables are consistent, and every record was asked for. -/
structure Audited (state : MemoryState) : Prop where
  grounded : Grounded state.retentionActions state.retentionActionKeys
  attributed : Attributed recordedAction (fun caller => (calls caller).key) (Writes hash calls) state

def retentionContract (caller : Nat) :
    Contract MemoryState (Except RetentionError RetentionReport) where
  assumes := Audited hash calls
  commits := CommitsEffect hash calls clock caller
  answers _ := True

variable {hash calls clock}

/-- The effect of a call appends its record to consistent tables. -/
private theorem effect_commits {caller : Nat} {state staged : MemoryState}
    {report : RetentionReport}
    (audited : Audited hash calls state)
    (done : (calls caller).effect hash (clock caller) state = .ok (report, staged)) :
    CommitsEffect hash calls clock caller state (memoryVersions.advance staged state) := by
  obtain ⟨draft, appended, keyed, asked⟩ := effect_ok done
  obtain ⟨action, operationId⟩ := Prod.mk.inj keyed
  have keys := appended.keys
  have free := appended.free
  rw [action, operationId] at keys free
  refine ⟨⟨indexed_free free, ⟨report.record, ?_, asked⟩, ?_⟩, ?_, ⟨report, staged, done, rfl⟩⟩
  · change indexed staged.retentionActions staged.retentionActionKeys _ = _
    rw [appended.actions, keys]
    exact indexed_append
  · intro other different
    change indexed staged.retentionActions staged.retentionActionKeys _ = _
    rw [appended.actions, keys]
    apply indexed_append_other audited.grounded appended.unused
    intro same
    obtain ⟨first, second⟩ := Prod.mk.inj same
    exact different (Prod.ext (retentionAsStr_injective first) second)
  · change Grounded staged.retentionActions staged.retentionActionKeys
    rw [appended.actions, keys]
    exact audited.grounded.append

private theorem session_keeps (caller : Nat) :
    ((calls caller).session hash (clock caller)).Keeps memoryVersions
      (retentionContract hash calls clock caller) := by
  apply Session.Keeps.bind fun _ => True
  · exact Session.Keeps.observe fun _ _ => trivial
  · intro found _
    cases found with
    | some record => trivial
    | none =>
      refine Session.Keeps.transact ?_ (fun _ _ _ _ => trivial) trivial
      intro snapshot report staged audited done
      rw [mapError_ok] at done
      exact ⟨effect_commits audited done, trivial⟩

private theorem recordedAction_elsewhere (other : OtherService) (state : MemoryState)
    (key : RetentionAction × OperationId) :
    recordedAction (memoryVersions.advance (other.change state) state) key =
      recordedAction state key := by
  obtain ⟨actions, keys⟩ := Prod.mk.inj (other.leaves state)
  change indexed (other.change state).retentionActions (other.change state).retentionActionKeys _ = _
  rw [actions, keys]
  rfl

private theorem retention_respects :
    Respects memoryVersions (Foreign.change : OtherService → _) (retentionContract hash calls clock) where
  callers _ _ _ _ commits audited :=
    ⟨commits.grounded, commits.appends.attributed audited.attributed⟩
  elsewhere other caller state audited := by
    obtain ⟨actions, keys⟩ := Prod.mk.inj (other.leaves state)
    refine ⟨?_, ?_⟩
    · change Grounded (other.change state).retentionActions (other.change state).retentionActionKeys
      rw [actions, keys]
      exact audited.grounded
    · intro key record stored
      rw [recordedAction_elsewhere] at stored
      exact audited.attributed key record stored

private theorem audited_empty : Audited hash calls .empty where
  grounded := by
    intro key id held
    simp [MemoryState.empty] at held
  attributed := by
    intro key record stored
    simp [recordedAction, findRetentionAction, MemoryState.empty] at stored

private theorem retention_fulfils (hash : List UInt8 → Digest) (calls : Nat → RetentionCall)
    (clock : Nat → SystemTime) (turns : List (Turn OtherService)) :
    (retentionRun hash calls clock turns).Fulfils memoryVersions
      (retentionContract hash calls clock) := by
  have start : (retentionSite hash calls clock).Fulfils memoryVersions
      (retentionContract hash calls clock) := .opened (fun _ => audited_empty) session_keeps
  exact start.run retention_respects turns

private theorem retention_journal : Journal memoryVersions
    (Foreign.change : OtherService → _) recordedAction
    (fun caller => (calls caller).key) (Writes hash calls) (retentionContract hash calls clock) where
  appends _ _ _ commits := commits.appends
  elsewhere other state key := recordedAction_elsewhere other state key

/-- A call that begins behind the record of its operation is answered with it, whatever
it asks for, and commits nothing. -/
private theorem replays_recorded {caller : Nat} {record : RetentionRecord}
    {earlier : List (Turn OtherService)} (unbegun : .begin caller ∉ earlier)
    (stored : recordedAction (retentionRun hash calls clock earlier).store (calls caller).key =
      some record) (between after : List (Turn OtherService)) :
    (retentionRun hash calls clock
      (earlier ++ .begin caller :: (between ++ .finish caller :: after))).callers caller =
      .waiting (.answer (.ok ⟨.replayed, record, none⟩)) := by
  rw [retentionRun, Site.run_append]
  have waits : (retentionRun hash calls clock earlier).callers caller =
      .waiting ((calls caller).session hash (clock caller)) := Site.unbegun_run rfl unbegun
  refine Site.observed_answers (fun state => recordedAction state (calls caller).key = some record)
    ?_ ?_ waits [] between after
  · intro snapshot saw
    change findRetentionAction snapshot (calls caller).action (calls caller).operationId = _ at saw
    rw [saw]
    rfl
  · exact retention_journal.recorded_run retention_respects (retention_fulfils _ _ _ earlier) stored

/-- The answer due to a call whose operation is recorded: its replay, but only to the
request that recorded it. -/
def RetentionCall.due (hash : List UInt8 → Digest) (call : RetentionCall)
    (record : RetentionRecord) : Except RetentionError RetentionReport :=
  if requestOf record = call.request hash then .ok ⟨.replayed, record, none⟩
  else .error (.operationIdConflict call.action call.operationId)

variable (hash calls clock)

/-- The commits of a run. -/
abbrev retentionTrace (turns : List (Turn OtherService)) : List (Commit MemoryState) :=
  (retentionSite hash calls clock).trace memoryVersions Foreign.change turns

/-- Calls that begin behind the record of their operation get the answer due to them
and commit nothing. -/
def HonestReplays : Prop :=
  ∀ (caller : Nat) (record : RetentionRecord) (earlier between later : List (Turn OtherService)),
    .begin caller ∉ earlier →
    recordedAction (retentionRun hash calls clock earlier).store (calls caller).key = some record →
    let turns := earlier ++ .begin caller :: (between ++ .finish caller :: later)
    (retentionRun hash calls clock turns).callers caller =
        .waiting (.answer ((calls caller).due hash record)) ∧
      ∀ commit ∈ retentionTrace hash calls clock turns, commit.caller ≠ caller

/-- Every commit of a call is its effect with its record, and no two commits of a run
are of one operation. -/
def AppliesOnce : Prop :=
  ∀ turns : List (Turn OtherService),
    (∀ commit ∈ retentionTrace hash calls clock turns,
      CommitsEffect hash calls clock commit.caller commit.before commit.after) ∧
    ((retentionTrace hash calls clock turns).map fun commit => (calls commit.caller).key).Nodup

/-- Calls under one operation ask for the same. -/
def Agreed : Prop :=
  ∀ caller other, (calls caller).key = (calls other).key →
    (calls caller).request hash = (calls other).request hash

variable {hash calls clock}

private theorem recorded_request {turns : List (Turn OtherService)} {caller : Nat}
    {record : RetentionRecord} (agreed : Agreed hash calls)
    (stored : recordedAction (retentionRun hash calls clock turns).store (calls caller).key =
      some record) : requestOf record = (calls caller).request hash := by
  have audited := (retention_fulfils hash calls clock turns).assumed caller
  obtain ⟨writer, same, asked⟩ := audited.attributed _ _ stored
  rw [← agreed writer caller same]
  exact asked

private theorem applies_once : AppliesOnce hash calls clock := by
  intro turns
  have start := retention_fulfils hash calls clock []
  constructor
  · exact start.trace retention_respects turns
  · exact retention_journal.trace_nodup retention_respects start turns

/-- Where calls under one operation ask for the same, replays are honest; an operation
is applied once in any case. -/
theorem retention_operations_honest (hash : List UInt8 → Digest) (calls : Nat → RetentionCall)
    (clock : Nat → SystemTime) :
    AppliesOnce hash calls clock ∧ (Agreed hash calls → HonestReplays hash calls clock) := by
  refine ⟨applies_once, ?_⟩
  intro agreed caller record earlier between later unbegun stored
  constructor
  · rw [RetentionCall.due, if_pos (recorded_request agreed stored)]
    exact replays_recorded unbegun stored between later
  · intro commit member
    rw [retentionTrace, Site.trace_append, List.mem_append] at member
    rcases member with ahead | behind
    · exact Site.unbegun_trace rfl unbegun commit ahead
    · exact retention_journal.trace_silent retention_respects (retention_fulfils _ _ _ earlier) stored _
        commit behind

/-- A call alone, whose operation is not recorded and whose effect is allowed, is applied. -/
private theorem applies_alone (site : Site MemoryState (Except RetentionError RetentionReport))
    (caller : Nat) {call : RetentionCall} {appliedAt : SystemTime} {report : RetentionReport}
    {staged : MemoryState} (waits : site.callers caller = .waiting (call.session hash appliedAt))
    (free : recordedAction site.store call.key = none)
    (done : call.effect hash appliedAt site.store = .ok (report, staged))
    (within : site.store.revision + 1 < u64Limit) :
    let answered := site.run memoryVersions (Foreign.change : OtherService → _)
      [.begin caller, .finish caller, .begin caller, .finish caller]
    answered.store = memoryVersions.advance staged site.store ∧
      answered.callers caller = .waiting (.answer (.ok report)) := by
  obtain ⟨same, goes⟩ := Site.undisturbed_reads memoryVersions (Foreign.change : OtherService → _)
    waits rfl
  change findRetentionAction site.store call.action call.operationId = none at free
  change _ = Caller.waiting (Session.bind (.answer (findRetentionAction site.store call.action
    call.operationId)) _) at goes
  rw [free] at goes
  have stages : ((call.effect hash appliedAt (site.run memoryVersions
      (Foreign.change : OtherService → _) [.begin caller, .finish caller]).store).mapError
        RetentionError.ofRepository).toOption.map (·.2) = some staged := by
    rw [same, done]
    rfl
  obtain ⟨store, answer⟩ := Site.undisturbed_commits memoryVersions
    (Foreign.change : OtherService → _) goes stages (by rw [same]; exact within)
  rw [same] at store
  refine ⟨store, answer.trans ?_⟩
  rw [same]
  dsimp only
  rw [done]
  rfl

/-- Two instances that some other service has created. -/
def twoInstances : OtherService where
  change state :=
    { state with
      instancesById := (state.instancesById.insert 1
        ⟨1, ⟨⟨"nightly", Eq.refl true⟩, []⟩⟩).insert 2
          ⟨2, ⟨⟨"weekly", Eq.refl true⟩, []⟩⟩ }
  leaves _ := rfl

/-- A hold of the first instance for everyone. -/
def holdFirst : RetentionCall :=
  .placeHold ⟨"op-1", Eq.refl true⟩ ⟨"alice", Eq.refl true⟩ ⟨"AUDIT", Eq.refl true⟩ 1

/-- The same operation for the second instance and another actor. -/
def holdSecond : RetentionCall :=
  .placeHold ⟨"op-1", Eq.refl true⟩ ⟨"bob", Eq.refl true⟩ ⟨"AUDIT", Eq.refl true⟩ 2

/-- Caller 0 places its hold. -/
def firstHolds : List (Turn OtherService) :=
  [.elsewhere twoInstances, .begin 0, .finish 0, .begin 0, .finish 0]

/-- The store that caller 0 begins on. -/
def instancesStore : MemoryState := memoryVersions.advance (twoInstances.change .empty) .empty

private theorem holdFirst_effect (hash : List UInt8 → Digest) :
    ∃ report staged, holdFirst.effect hash 0 instancesStore = .ok (report, staged) := by
  have known : instancesStore.instancesById.contains 1 = true := by
    decide +kernel
  have next : nextId instancesStore.retentionActions.maxKey? = .ok 1 := by
    have unused : instancesStore.retentionActions.maxKey? = none := ExtTreeMap.maxKey?_empty
    rw [unused]
    rfl
  simp only [holdFirst, RetentionCall.effect, holdUnit, placeInstanceHold, appendRetentionAction,
    bind_yields, pure_yields, get_yields, lift_yields, ensure_ok, modify_yields, not_contains,
    existsAndEq, and_true, true_and, known, next]
  exact ⟨(), (), (), _, (), ExtTreeMap.not_mem_empty, rfl⟩

/-- Once caller 0 is done, its request is recorded. -/
private theorem firstHolds_recorded (hash : List UInt8 → Digest) (calls : Nat → RetentionCall)
    (first : calls 0 = holdFirst) :
    ∃ record, recordedAction (retentionRun hash calls (fun _ => 0) firstHolds).store holdFirst.key =
      some record ∧ requestOf record = holdFirst.request hash := by
  obtain ⟨report, staged, done⟩ := holdFirst_effect hash
  have begun : (retentionRun hash calls (fun _ => 0) [.elsewhere twoInstances]).store =
      instancesStore := rfl
  obtain ⟨store, -⟩ := applies_alone (retentionRun hash calls (fun _ => 0)
    [.elsewhere twoInstances]) 0 (by rw [← first]; rfl)
    (by rw [begun]; decide +kernel) (begun ▸ done) (by rw [begun]; decide +kernel)
  have commits : CommitsEffect hash calls (fun _ => 0) 0 _ (memoryVersions.advance staged _) :=
    effect_commits ((retention_fulfils hash calls (fun _ => 0) [.elsewhere twoInstances]).assumed 0)
      (by rw [first]; exact begun ▸ done)
  obtain ⟨record, stored, asked⟩ := commits.appends.added
  rw [first] at stored
  refine ⟨record, ?_, first ▸ asked⟩
  rw [← stored]
  exact congrArg (recordedAction · holdFirst.key) store

theorem repeated_hold_replays :
    (∃ record, recordedAction (retentionRun (fun _ => 0) (fun _ => holdFirst) (fun _ => 0)
      firstHolds).store holdFirst.key = some record) ∧
      HonestReplays (fun _ => 0) (fun _ => holdFirst) fun _ => 0 := by
  obtain ⟨record, stored, -⟩ := firstHolds_recorded (fun _ => 0) (fun _ => holdFirst) rfl
  exact ⟨⟨record, stored⟩,
    (retention_operations_honest (fun _ => 0) (fun _ => holdFirst) fun _ => 0).2 fun _ _ _ => rfl⟩

/-- Under one operation the second caller asks for another hold, and is told of a replay
of the first. -/
theorem foreign_hold_replays :
    ¬ HonestReplays (fun _ => 0) (fun caller => if caller = 0 then holdFirst else holdSecond)
      fun _ => 0 := by
  intro honest
  obtain ⟨record, stored, asked⟩ := firstHolds_recorded (fun _ => 0)
    (fun caller => if caller = 0 then holdFirst else holdSecond) rfl
  have unbegun : .begin 1 ∉ firstHolds := by
    simp [firstHolds]
  have due := (honest 1 record firstHolds [] [] unbegun stored).1
  rw [replays_recorded unbegun stored [] []] at due
  have conflict : requestOf record ≠ holdSecond.request fun _ => 0 := by
    rw [asked]
    decide
  change _ = Caller.waiting (Session.answer (holdSecond.due _ record)) at due
  rw [RetentionCall.due, if_neg conflict] at due
  cases due

end Runs

end OxideBatch.Service
