import OxideBatch.Chunk.Conservation
import OxideBatch.Chunk.PhaseRule
import OxideBatch.Core.FaultPolicy

/-! What a run under a fault policy keeps: the records a reader moved past in failing,
the skips that account for them, and the retries it asks the store for. -/

namespace OxideBatch.Chunk

open OxideBatch.Core OxideBatch.Lib Program

variable {I O : Type}

/-- The runtime of a policy. -/
def policyRuntime (policy : FaultPolicy) (deliveryMode : ChunkDeliveryMode) : FaultRuntime :=
  ⟨policy.decide, policy.requiresCommitSafeSkip, deliveryMode⟩

/-- A step with a fault policy installed. -/
def Components.governed (components : Components) (policy : FaultPolicy)
    (deliveryMode : ChunkDeliveryMode) : Components :=
  { components with fault := some (policyRuntime policy deliveryMode) }

def passedReadsStep (calls : List Nat) (event : Event I O) : List Nat :=
  match event with
  | ⟨.read call, .failed error⟩ => if error.hasCheckpointAdvanced then calls ++ [call] else calls
  | ⟨.commit _ _ _ _, .ok _⟩ => []
  | _ => calls

/-- The reader calls since the last successful commit that failed past a record. -/
def passedReads (trace : Trace I O) : List Nat := trace.foldl passedReadsStep []

theorem passedReads_snoc (trace : Trace I O) (event : Event I O) :
    passedReads (trace ++ [event]) = passedReadsStep (passedReads trace) event := by
  simp [passedReads]

/-- No reader call that failed past a record was answered with a retry: behind each, the
ordinal the store holds for its key lets the policy grant none. -/
def StaysPut (policy : FaultPolicy) (trace : Trace I O) : Prop :=
  ∀ before call error key held after,
    trace = before ++ ⟨.read call, .failed error⟩ :: ⟨.reservedOrdinal key, held⟩ :: after →
    error.hasCheckpointAdvanced = true →
    policy.retries .read error.category (Option.getD held 0) = none

theorem StaysPut.of_append {policy : FaultPolicy} {trace later : Trace I O}
    (stays : StaysPut policy (trace ++ later)) : StaysPut policy trace := by
  intro before call error key held after split
  apply stays before call error key held (after ++ later)
  rw [split]
  simp

/-- What the trace of a run keeps at one event: retries are asked for within the limit,
keys are cleared right behind a commit, and a commit's read skips are the records the
reader failed past. -/
def KeptAt (policy : FaultPolicy) (trace : Trace I O) (event : Event I O) : Prop :=
  match event.query with
  | .reserve reservation => 0 < reservation.ordinal ∧ reservation.ordinal ≤ policy.retryLimit
  | .clearResolved => ∃ before counts progress componentState slots receipt,
      trace = before ++ [⟨.commit counts progress componentState slots, .ok receipt⟩]
  | .commit _ progress _ _ => StaysPut policy trace →
      progress.skips.read = (passedReads trace).length
  | _ => True

def Kept (policy : FaultPolicy) (trace : Trace I O) : Prop := Throughout (KeptAt policy) trace

variable {policy : FaultPolicy}

private theorem keptAt_calm {event : Event I O} (calm : event.query.isCalm = true)
    (trace : Trace I O) :
    KeptAt policy trace event := by
  obtain ⟨query, answer⟩ := event
  cases query with
  | reserve reservation => cases calm
  | clearResolved => cases calm
  | commit counts progress componentState slots => cases calm
  | _ => trivial

theorem Kept.append {trace : Trace I O} {events : List (Event I O)} (kept : Kept policy trace)
    (calm : ∀ event ∈ events, event.query.isCalm = true) : Kept policy (trace ++ events) :=
  Throughout.append kept fun event member before => keptAt_calm (calm event member) before

private theorem passedReads_append {trace : Trace I O} {events : List (Event I O)}
    (calm : ∀ event ∈ events, event.query.isCalm = true) :
    passedReads (trace ++ events) = passedReads trace := by
  induction events generalizing trace with
  | nil => rw [List.append_nil]
  | cons event events ih =>
    have first : passedReads (trace ++ [event]) = passedReads trace := by
      rw [passedReads_snoc]
      have side := calm event List.mem_cons_self
      obtain ⟨query, answer⟩ := event
      cases query <;> first | rfl | cases side
    rw [← List.singleton_append, ← List.append_assoc,
      ih fun other member => calm other (List.mem_cons_of_mem _ member), first]

/-- The read skips of a chunk. -/
def readSkips (skips : List (PendingSkip O)) : Nat := skips.countP (·.phase = .read)

/-- Between the calls of a chunk: every record the reader failed past is a pending skip. -/
structure Tracked (policy : FaultPolicy) (exec : Exec I O) : Prop where
  kept : Kept policy exec.trace
  skips : StaysPut policy exec.trace →
    readSkips exec.buffer.skips = (passedReads exec.trace).length

theorem Still.kept {before after : Exec I O} (still : Still before after)
    (kept : Kept policy before.trace) : Kept policy after.trace := by
  obtain ⟨events, trace, calm⟩ := still.events
  rw [trace]
  exact kept.append calm

theorem Still.passed {before after : Exec I O} (still : Still before after) :
    passedReads after.trace = passedReads before.trace := by
  obtain ⟨events, trace, calm⟩ := still.events
  rw [trace, passedReads_append calm]

theorem Still.stays {before after : Exec I O} (still : Still before after)
    (stays : StaysPut policy after.trace) : StaysPut policy before.trace := by
  obtain ⟨events, trace, calm⟩ := still.events
  rw [trace] at stays
  exact stays.of_append

theorem Tracked.still {before after : Exec I O} (tracked : Tracked policy before)
    (still : Still before after) : Tracked policy after := by
  refine ⟨still.kept tracked.kept, ?_⟩
  intro stays
  rw [still.skips, still.passed]
  exact tracked.skips (still.stays stays)

private theorem tracked_keeps {program : ChunkM I O α} (still : Along Still program) :
    Ensures (Tracked policy) program (fun _ => Tracked policy) :=
  still.ensures Tracked.still

/-- What a verdict leaves: a chunk that goes on keeps its account, and a retry is within
the limit. -/
def Verdict.Tracks (policy : FaultPolicy) (verdict : Verdict) (exec : Exec I O) : Prop :=
  match verdict with
  | .commit | .replay => Tracked policy exec
  | .retry request => Tracked policy exec ∧ 0 < request.ordinal ∧
      request.ordinal ≤ policy.retryLimit
  | .terminal _ => Kept policy exec.trace

/-- The account between the calls of an attempt. -/
def trackedPhases (policy : FaultPolicy) : PhaseRule I O where
  kept := Tracked policy
  leaves verdict := verdict.Tracks policy
  ready _ := Tracked policy
  step := Still
  settling := mild_still
  keeps _ _ tracked still := tracked.still still
  goesOn _ := Iff.rfl
  ends _ _ tracked := tracked.kept

abbrev UnitTracks (policy : FaultPolicy) : Option Verdict → Exec I O → Prop :=
  (trackedPhases policy).unit

section Classification

variable (env : Environment I O) {components : Components} {deliveryMode : ChunkDeliveryMode}

/-- The fault behind a trace: its ordinal is what the store was asked for next. -/
structure Described (phase : FaultPhase) (category : FailureCategory) (key : Digest)
    (start : Trace I O) (fault : FaultDescriptor) (exec : Exec I O) : Prop where
  phase : fault.phase = phase
  category : fault.category = category
  asked : ∃ held later, exec.trace = start ++ ⟨.reservedOrdinal key, held⟩ :: later ∧
    fault.retryOrdinal = Option.getD held 0

theorem Described.still {phase : FaultPhase} {category : FailureCategory} {key : Digest}
    {start : Trace I O} {fault : FaultDescriptor} {before after : Exec I O}
    (described : Described phase category key start fault before) (still : Still before after) :
    Described phase category key start fault after := by
  obtain ⟨held, later, trace, ordinal⟩ := described.asked
  obtain ⟨events, extended, _⟩ := still.events
  refine ⟨described.phase, described.category, held, later ++ events, ?_, ordinal⟩
  rw [extended, trace, List.append_assoc, List.cons_append]

private theorem silent_keeps {program : ChunkM I O α} {start : Trace I O}
    (silent : ∀ exec, (program exec).2.trace = exec.trace) :
    Ensures (fun exec => exec.trace = start) program (fun _ exec => exec.trace = start) := by
  intro exec same
  rw [silent, same]

theorem anyway {program : ChunkM I O α} :
    Ensures (fun _ => True) program (fun _ _ => True) := fun _ _ => trivial

private theorem descriptor_ensures (phase : FaultPhase) (category : FailureCategory)
    (start : Trace I O) :
    Ensures (fun exec => exec.trace = start) (descriptor components phase category)
      (fun found exec => exec.trace = start ∧ ∀ fault, found = some fault →
        fault.phase = phase ∧ fault.category = category) := by
  refine Ensures.bind (silent_keeps fun _ => rfl) fun state => ?_
  refine Ensures.bind (silent_keeps fun _ => rfl) fun buffer => ?_
  split
  · exact Ensures.pure fun _ same => ⟨same, by simp⟩
  · refine Ensures.bind (silent_keeps fun _ => rfl) fun _ => ?_
    refine Ensures.bind (silent_keeps fun _ => rfl) fun later => ?_
    dsimp only
    split
    · exact Ensures.pure fun _ same => ⟨same, by simp⟩
    · refine Ensures.pure fun _ same => ⟨same, ?_⟩
      intro fault made
      cases made
      exact ⟨rfl, rfl⟩

private theorem classify_decides
    (governed : components.fault = some (policyRuntime policy deliveryMode))
    (key : Digest) (fault : FaultDescriptor) (evidence : FaultEvidence) (sequence : Nat) :
    Ensures (fun _ => True) (classify env components key fault evidence sequence)
      (fun answer _ => ∀ decision, answer = .ok decision →
        decision = policy.decide fault evidence) := by
  refine Ensures.bind anyway fun buffer => ?_
  refine Ensures.bind anyway fun ended => ?_
  rw [governed]
  split
  · exact Ensures.pure fun _ _ => by simp
  · dsimp only
    split
    · refine Ensures.bind anyway fun _ => ?_
      refine Ensures.bind anyway fun _ => ?_
      refine Ensures.bind anyway fun failed => ?_
      split
      · exact Ensures.pure fun _ _ => by simp
      · refine Ensures.pure fun _ _ decision made => ?_
        cases made
        rfl
    · refine Ensures.pure fun _ _ decision made => ?_
      cases made
      rfl

private theorem withReservedOrdinal_describes
    (governed : components.fault = some (policyRuntime policy deliveryMode)) {phase : FaultPhase}
    {category : FailureCategory} (key : Digest) {fault : FaultDescriptor} (start : Trace I O)
    (samePhase : fault.phase = phase) (sameCategory : fault.category = category) :
    Ensures (fun exec => exec.trace = start) (withReservedOrdinal env components key fault)
      (Described phase category key start) := by
  intro exec same
  simp only [withReservedOrdinal, governed]
  exact ⟨samePhase, sameCategory, _, [], same ▸ rfl, rfl⟩

/-- Classification under a policy: the store is asked for the ordinal first, and the
decision is the policy's about it. -/
private theorem classifyFault_classifies
    (governed : components.fault = some (policyRuntime policy deliveryMode)) (phase : FaultPhase)
    (category : FailureCategory) (key : Digest) (pass : FaultDescriptor → ItemPass I O)
    (entered : Nat) (evidence : FaultEvidence) (sequence : Nat) (start : Trace I O) :
    Ensures (fun exec => exec.trace = start)
      (classifyFault env components phase category key pass entered evidence sequence)
      (fun answer exec => ∀ fault decision, answer = .ok (fault, decision) →
        Described phase category key start fault exec ∧
          decision = policy.decide fault evidence) := by
  refine Ensures.bind (descriptor_ensures phase category start) fun found => ?_
  split
  · exact Ensures.pure fun _ _ => by simp
  · rename_i made
    have asking : Ensures
        (fun exec => exec.trace = start ∧ ∀ fault, some made = some fault →
          fault.phase = phase ∧ fault.category = category)
        (withReservedOrdinal env components key made) (Described phase category key start) := by
      rintro exec ⟨same, described⟩
      obtain ⟨samePhase, sameCategory⟩ := described made rfl
      exact withReservedOrdinal_describes env governed key start samePhase sameCategory exec same
    refine Ensures.bind asking fun fault => ?_
    have keeps : ∀ {β : Type} {program : ChunkM I O β}, Along Still program →
        Ensures (Described phase category key start fault) program
          (fun _ => Described phase category key start fault) :=
      fun still => still.ensures Described.still
    refine Ensures.bind (keeps (still_ask env rfl)) fun failures => ?_
    refine Ensures.bind (keeps (mild_still.recordPass _)) fun failed => ?_
    split
    · exact Ensures.pure fun _ _ => by simp
    · have classifying : Ensures (Described phase category key start fault)
          (classify env components key fault evidence sequence)
          (fun answer exec => Described phase category key start fault exec ∧
            ∀ decision, answer = .ok decision → decision = policy.decide fault evidence) :=
        fun exec described => ⟨keeps (mild_still.classify env components _ _ _ _) exec described,
          classify_decides env governed key fault evidence sequence exec trivial⟩
      refine Ensures.bind classifying fun answer => ?_
      split
      · exact Ensures.pure fun _ _ => by simp
      · refine Ensures.pure fun _ holds fault' decision' answered => ?_
        cases answered
        exact ⟨holds.1, holds.2 _ rfl⟩

end Classification

section Read

variable (env : Environment I O) {components : Components} {deliveryMode : ChunkDeliveryMode}

/-- Whether a reader call failed past its record. -/
def failedPast (invoked : Invoked (ReadOutcome I) ReaderError) : Bool :=
  match invoked with
  | .failed error => error.hasCheckpointAdvanced
  | _ => false

/-- A reader call just failed; the record it may have moved past is not skipped yet. -/
structure ReadFailed (policy : FaultPolicy) (invoked : Invoked (ReadOutcome I) ReaderError)
    (exec : Exec I O) : Prop where
  kept : Kept policy exec.trace
  last : ∃ before call, exec.trace = before ++ [⟨.read call, invoked⟩]
  skips : StaysPut policy exec.trace →
    readSkips exec.buffer.skips + (failedPast invoked).toNat = (passedReads exec.trace).length

/-- The policy grants no retry behind a call that failed past its record. -/
theorem ReadFailed.no_retry {invoked : Invoked (ReadOutcome I) ReaderError} {exec after : Exec I O}
    {key : Digest} {fault : FaultDescriptor} (failed : ReadFailed policy invoked exec)
    (described : Described .read (invokedFault invoked (·.category) .reader .readerPanic).1 key
      exec.trace fault after) (stays : StaysPut policy after.trace)
    (past : failedPast invoked = true) :
    policy.retries fault.phase fault.category fault.retryOrdinal = none := by
  obtain ⟨before, call, last⟩ := failed.last
  obtain ⟨held, later, trace, ordinal⟩ := described.asked
  cases invoked with
  | completed outcome => cases past
  | panicked => cases past
  | failed error =>
    rw [described.phase, described.category, ordinal]
    refine stays before call error key held later ?_ past
    rw [trace, last, List.append_assoc, List.singleton_append]

/-- A record the reader did not move past leaves nothing to skip. -/
theorem ReadFailed.retried {invoked : Invoked (ReadOutcome I) ReaderError} {start exec : Exec I O}
    (failed : ReadFailed policy invoked start) (still : Still start exec)
    (unmoved : StaysPut policy exec.trace → failedPast invoked = false) : Tracked policy exec := by
  refine ⟨still.kept failed.kept, ?_⟩
  intro stays
  have balance := failed.skips (still.stays stays)
  rw [unmoved stays] at balance
  rw [still.skips, still.passed]
  exact balance

/-- The skip of a record the reader moved past settles it. -/
theorem ReadFailed.skipped {invoked : Invoked (ReadOutcome I) ReaderError} {start exec : Exec I O}
    {buffer : ChunkBuffer I O} {skip : PendingSkip O} (failed : ReadFailed policy invoked start)
    (still : Still start exec) (past : failedPast invoked = true)
    (pushed : buffer.skips = exec.buffer.skips ++ [skip]) (read : skip.phase = .read) :
    Tracked policy { exec with buffer := buffer } := by
  refine ⟨still.kept failed.kept, ?_⟩
  intro stays
  have balance := failed.skips (still.stays stays)
  rw [past] at balance
  change readSkips buffer.skips = (passedReads exec.trace).length
  rw [still.passed, ← balance, pushed, still.skips, readSkips, List.countP_append]
  simp [readSkips, read]

private theorem readFault_tracks
    (governed : components.fault = some (policyRuntime policy deliveryMode))
    (sequence : Nat) (key : Digest) (entered : Nat)
    (invoked : Invoked (ReadOutcome I) ReaderError) :
    Ensures (ReadFailed policy invoked) (readFault env components sequence key entered invoked)
      (UnitTracks policy) := by
  intro start failed
  let category := (invokedFault invoked (·.category) .reader .readerPanic).1
  let evidence : FaultEvidence := ⟨failedPast invoked, true, failedPast invoked⟩
  have classifying : Ensures (fun exec => exec = start)
      (classifyFault env components .read category key .readError entered evidence sequence)
      (fun answer exec => Still start exec ∧ ∀ fault decision, answer = .ok (fault, decision) →
        Described .read category key start.trace fault exec ∧
          decision = policy.decide fault evidence) := by
    rintro exec rfl
    exact ⟨still_classifyFault env components _ _ _ _ _ _ _ exec,
      classifyFault_classifies env governed _ _ _ _ _ _ _ exec.trace exec rfl⟩
  suffices whole : Ensures (fun exec => exec = start)
      (readFault env components sequence key entered invoked) (UnitTracks policy) from
    whole start rfl
  refine Ensures.bind classifying fun answer => ?_
  split
  · exact Ensures.pure fun exec holds => holds.1.kept failed.kept
  · rename_i fault decision
    split
    · rename_i ordinal delay
      refine Ensures.pure fun exec ⟨still, classified⟩ => ?_
      obtain ⟨described, decided⟩ := classified _ _ rfl
      have granted := FaultPolicy.decide_retry decided.symm
      refine ⟨failed.retried still ?_, FaultPolicy.retries_within granted⟩
      intro stays
      by_contra past
      rw [failed.no_retry described stays (Bool.eq_true_of_not_eq_false past)] at granted
      cases granted
    · rename_i disposition
      have resolving : Ensures (fun exec => Still start exec ∧ ∀ fault' decision',
          (.ok (fault, .skip disposition) : Except ChunkExecutionOutcome _) =
            .ok (fault', decision') →
          Described .read category key start.trace fault' exec ∧
            decision' = policy.decide fault' evidence)
          (resolveKey env components key)
          (fun _ exec => Still start exec ∧ failedPast invoked = true) := by
        rintro exec ⟨still, classified⟩
        obtain ⟨described, decided⟩ := classified _ _ rfl
        exact ⟨still.trans (mild_still.resolveKey env components key exec),
          FaultPolicy.decide_skip_read described.phase decided.symm⟩
      refine Ensures.bind resolving fun _ => ?_
      rintro exec ⟨still, past⟩
      have tracked : Tracked policy { exec with buffer := { exec.buffer with
          readOrdinal := saturatingAdd exec.buffer.readOrdinal 1,
          skips := exec.buffer.skips ++ [⟨.read, fault, disposition, none, none⟩] } } :=
        failed.skipped still past rfl rfl
      change UnitTracks policy (if disposition = .rollback then some .replay else none) _
      split
      · exact tracked
      · exact tracked
    · exact Ensures.pure fun exec holds => holds.1.kept failed.kept
    · exact Ensures.pure fun exec holds => holds.1.kept failed.kept
    · exact Ensures.pure fun exec holds => holds.1.kept failed.kept

theorem Tracked.read {exec : Exec I O} (tracked : Tracked policy exec) (call : Nat)
    (answer : Invoked (ReadOutcome I) ReaderError) :
    (trackedPhases policy).called (ReadFailed policy) answer
      { exec with trace := exec.trace ++ [⟨.read call, answer⟩] } := by
  have kept : Kept policy (exec.trace ++ [⟨.read call, answer⟩]) :=
    Throughout.snoc tracked.kept trivial
  have passed := passedReads_snoc exec.trace ⟨.read call, answer⟩
  cases answer with
  | completed outcome =>
    refine ⟨kept, ?_⟩
    intro stays
    exact (tracked.skips stays.of_append).trans (congrArg List.length passed.symm)
  | panicked =>
    refine ⟨kept, ⟨exec.trace, call, rfl⟩, ?_⟩
    intro stays
    exact (tracked.skips stays.of_append).trans (congrArg List.length passed.symm)
  | failed error =>
    refine ⟨kept, ⟨exec.trace, call, rfl⟩, ?_⟩
    intro stays
    change _ = (passedReads (exec.trace ++ _)).length
    rw [passed, tracked.skips stays.of_append]
    change _ + error.hasCheckpointAdvanced.toNat =
      (if error.hasCheckpointAdvanced then passedReads exec.trace ++ [call]
        else passedReads exec.trace).length
    cases error.hasCheckpointAdvanced with
    | false => rfl
    | true => simp

theorem Tracked.skips_eq {exec : Exec I O} {buffer : ChunkBuffer I O}
    (tracked : Tracked policy exec) (same : readSkips buffer.skips = readSkips exec.buffer.skips) :
    Tracked policy { exec with buffer := buffer } :=
  ⟨tracked.kept, fun stays => same.trans (tracked.skips stays)⟩

private theorem readPhase_tracks
    (governed : components.fault = some (policyRuntime policy deliveryMode))
    (sequence fuel : Nat) :
    Ensures (Tracked policy) (readPhase env components sequence fuel) (UnitTracks policy) := by
  refine (trackedPhases policy).readPhase env ?_ fuel
  exact (trackedPhases policy).readOne env (ReadFailed policy)
    (fun _ call answer tracked => tracked.read call answer)
    (fun _ _ same tracked => tracked.skips_eq (congrArg readSkips same))
    fun _ _ _ => readFault_tracks env governed _ _ _ _

end Read

section Write

variable (env : Environment I O) {components : Components} {deliveryMode : ChunkDeliveryMode}

/-- An event that moves no record keeps the account. -/
theorem Tracked.snoc {exec : Exec I O} {event : Event I O} (tracked : Tracked policy exec)
    (here : KeptAt policy exec.trace event)
    (same : passedReadsStep (passedReads exec.trace) event = passedReads exec.trace) :
    Tracked policy { exec with trace := exec.trace ++ [event] } := by
  refine ⟨Throughout.snoc tracked.kept here, ?_⟩
  intro stays
  change _ = (passedReads (exec.trace ++ [event])).length
  rw [passedReads_snoc, same]
  exact tracked.skips stays.of_append

/-- Classifying keeps the account, and a retry it decides is within the limit. -/
private theorem classifyFault_within
    (governed : components.fault = some (policyRuntime policy deliveryMode)) (phase : FaultPhase)
    (category : FailureCategory) (key : Digest) (pass : FaultDescriptor → ItemPass I O)
    (entered : Nat) (evidence : FaultEvidence) (sequence : Nat) :
    Ensures (Tracked policy)
      (classifyFault env components phase category key pass entered evidence sequence)
      (fun answer exec => Tracked policy exec ∧ ∀ fault ordinal delay,
        answer = .ok (fault, .retry ordinal delay) →
          0 < ordinal ∧ ordinal ≤ policy.retryLimit) := by
  intro exec tracked
  refine ⟨tracked.still (still_classifyFault env components _ _ _ _ _ _ _ exec), ?_⟩
  intro fault ordinal delay answered
  obtain ⟨_, decided⟩ :=
    classifyFault_classifies env governed _ _ _ _ _ _ _ exec.trace exec rfl _ _ answered
  exact FaultPolicy.retries_within (FaultPolicy.decide_retry decided.symm)

private theorem processFault_tracks
    (governed : components.fault = some (policyRuntime policy deliveryMode))
    (sequence index : Nat) (item : I) (key : Digest) (entered : Nat)
    (invoked : Invoked (ProcessOutcome O) ProcessorError) :
    Ensures (Tracked policy) (processFault env components sequence index item key entered invoked)
      (UnitTracks policy) := by
  refine Ensures.bind (classifyFault_within env governed _ _ _ _ _ _ _) fun answer => ?_
  split
  · exact Ensures.pure fun _ holds => holds.1.kept
  · split
    · exact Ensures.pure fun _ holds => ⟨holds.1, holds.2 _ _ _ rfl⟩
    · refine Ensures.weaken ?_ (fun _ holds => holds.1) fun _ _ tracks => tracks
      refine Ensures.bind (tracked_keeps (mild_still.resolveKey env components key)) fun _ => ?_
      refine Ensures.bind (modifyBuffer_ensures fun _ tracked => tracked.skips_eq ?_) fun _ => ?_
      · simp [readSkips]
      · refine Ensures.pure fun _ tracked => ?_
        split
        · exact tracked
        · exact tracked
    · exact Ensures.pure fun _ holds => holds.1.kept
    · exact Ensures.pure fun _ holds => holds.1.kept
    · exact Ensures.pure fun _ holds => holds.1.kept

private theorem processPhase_tracks
    (governed : components.fault = some (policyRuntime policy deliveryMode)) (sequence : Nat) :
    Ensures (Tracked policy) (processPhase env components sequence : ChunkM I O _)
      (fun result => result.1.Tracks policy) := by
  refine (trackedPhases policy).processPhase env fun index slot outputs => ?_
  refine Ensures.weaken ?_ (fun _ holds => holds.1) fun _ _ tracks => tracks
  exact (trackedPhases policy).processOne env (fun _ tracked => tracked.snoc trivial rfl)
    fun _ _ _ => processFault_tracks env governed _ _ _ _ _ _

private theorem writeFault_tracks
    (governed : components.fault = some (policyRuntime policy deliveryMode))
    (sequence : Nat) (outputs : AttemptOutputs O) (key : Digest) (entered : Nat)
    (invoked : Invoked WriteOutcome WriterError) :
    Ensures (Tracked policy)
      (writeFault env components sequence outputs key entered invoked : ChunkM I O _)
      (fun verdict => verdict.Tracks policy) := by
  refine Ensures.bind (classifyFault_within env governed _ _ _ _ _ _ _) fun answer => ?_
  split
  · exact Ensures.pure fun _ holds => holds.1.kept
  · split
    · exact Ensures.pure fun _ holds => ⟨holds.1, holds.2 _ _ _ rfl⟩
    · refine Ensures.weaken ?_ (fun _ holds => holds.1) fun _ _ tracks => tracks
      split
      · exact Ensures.pure fun _ tracked => tracked.kept
      · refine Ensures.bind (tracked_keeps (mild_still.resolveKey env components key)) fun _ => ?_
        intro exec tracked
        refine tracked.skips_eq ?_
        simp [readSkips]
    · exact Ensures.pure fun _ holds => holds.1.kept
    · exact Ensures.pure fun _ holds => holds.1.kept
    · exact Ensures.pure fun _ holds => holds.1.kept

private theorem writePhase_tracks
    (governed : components.fault = some (policyRuntime policy deliveryMode))
    (sequence : Nat) (outputs : AttemptOutputs O) :
    Ensures (Tracked policy) (writePhase env components sequence outputs : ChunkM I O _)
      (trackedPhases policy).written := by
  refine (trackedPhases policy).writePhase env (fun _ tracked => tracked.snoc trivial rfl)
    ((trackedPhases policy).updateStreams env (fun _ _ tracked => tracked) _ _ _)
    fun key entered invoked => ?_
  exact (writeFault_tracks env governed _ _ _ _ _).weaken (fun _ tracked => tracked)
    fun verdict _ tracks => by cases verdict <;> exact tracks

end Write

section Commit

private theorem checked_eq {counts next : SkipCounts} (counted : counts.checked = some next) :
    next = counts := by
  simp only [SkipCounts.checked, Option.map_eq_some_iff] at counted
  obtain ⟨_, _, rfl⟩ := counted
  rfl

private theorem checkedIncrement_read {counts next : SkipCounts} {phase : FaultPhase}
    (counted : counts.checkedIncrement phase = some next) :
    next.read = counts.read + if phase = .read then 1 else 0 := by
  cases phase with
  | read =>
    simp only [SkipCounts.checkedIncrement, Option.bind_eq_bind, Option.bind_eq_some_iff] at counted
    obtain ⟨read, added, counted⟩ := counted
    rw [checked_eq counted]
    simp only [Core.checkedAdd] at added
    split at added
    · cases added
      rfl
    · cases added
  | process =>
    simp only [SkipCounts.checkedIncrement, Option.bind_eq_bind, Option.bind_eq_some_iff] at counted
    obtain ⟨process, _, counted⟩ := counted
    rw [checked_eq counted]
    rfl
  | write =>
    simp only [SkipCounts.checkedIncrement, Option.bind_eq_bind, Option.bind_eq_some_iff] at counted
    obtain ⟨write, _, counted⟩ := counted
    rw [checked_eq counted]
    rfl
  | transaction => cases counted
  | checkpoint => cases counted
  | listener => cases counted
  | backoff => cases counted

/-- The read skips a commit hands over are those of its chunk. -/
private theorem acceptedFaultProgress_read {skips : List (PendingSkip O)}
    {accepted : ChunkFaultProgress}
    (counted : acceptedFaultProgress skips = some accepted) :
    accepted.skips.read = readSkips skips := by
  suffices general : ∀ start : ChunkFaultProgress,
      skips.foldlM (fun progress (skip : PendingSkip O) => do
        let counts ← progress.skips.checkedIncrement skip.phase
        if skip.disposition = .commitSafeSkip then
          let noRollbacks ← Core.checkedAdd progress.noRollbacks 1
          pure ⟨counts, noRollbacks⟩
        else pure ⟨counts, progress.noRollbacks⟩) start = some accepted →
      accepted.skips.read = start.skips.read + readSkips skips by
    have total := general ⟨.zero, 0⟩ counted
    simpa [SkipCounts.zero] using total
  clear counted
  induction skips with
  | nil =>
    intro start folded
    cases folded
    rfl
  | cons skip skips ih =>
    intro start folded
    simp only [List.foldlM_cons, Option.bind_eq_bind, Option.bind_eq_some_iff] at folded
    obtain ⟨next, ⟨counts, incremented, stepped⟩, rest⟩ := folded
    have held : next.skips = counts := by
      split at stepped
      · obtain ⟨_, _, made⟩ := Option.bind_eq_some_iff.mp stepped
        cases made
        rfl
      · cases stepped
        rfl
    rw [ih next rest, held, checkedIncrement_read incremented, readSkips, readSkips,
      List.countP_cons]
    simp only [decide_eq_true_eq]
    omega

variable (env : Environment I O) {components : Components} {deliveryMode : ChunkDeliveryMode}

/-- Behind a successful commit no record waits for its skip. -/
structure Settles (policy : FaultPolicy) (exec : Exec I O) : Prop where
  kept : Kept policy exec.trace
  none : passedReads exec.trace = []

theorem Settles.still {before after : Exec I O} (settles : Settles policy before)
    (still : Still before after) : Settles policy after :=
  ⟨still.kept settles.kept, still.passed.trans settles.none⟩

private theorem kept_calm : Calm (fun exec : Exec I O => Kept policy exec.trace) :=
  fun _ _ kept still => still.kept kept

/-- The commit that closes a chunk is the last event. -/
structure JustCommitted (policy : FaultPolicy) (exec : Exec I O) : Prop
    extends Settles policy exec where
  last : ∃ before counts progress componentState slots receipt,
    exec.trace = before ++ [⟨.commit counts progress componentState slots, .ok receipt⟩]

private theorem acceptCommit_tracks (counts : ChunkCounts) (accepted : ChunkFaultProgress)
    (receipt : CommitReceipt) :
    Ensures (JustCommitted policy) (acceptCommit env components counts accepted receipt)
      (AttemptResult.LeadsTo (Tracked policy) (Settles policy)
        fun exec => Kept policy exec.trace) := by
  have reading : Ensures (JustCommitted policy) (getState : ChunkM I O _)
      (fun _ => JustCommitted policy) := fun _ committed => committed
  refine Ensures.bind reading fun state => ?_
  split
  · exact Ensures.pure fun _ committed => committed.kept
  · rename_i nextSkips _
    have counting : ∀ change, Ensures (JustCommitted policy) (modifyState change : ChunkM I O _)
        (fun _ => JustCommitted policy) :=
      fun _ _ committed => ⟨⟨committed.kept, committed.none⟩, committed.last⟩
    refine Ensures.bind (counting _) fun _ => ?_
    split
    · exact Ensures.pure fun _ committed => committed.toSettles
    · intro exec committed
      refine ⟨Throughout.snoc committed.kept committed.last, ?_⟩
      exact (passedReads_snoc _ _).trans committed.none

private theorem commitAttempt_tracks (outputs : AttemptOutputs O)
    (componentState : List ComponentStateEnvelope) :
    Ensures (Tracked policy) (commitAttempt env components outputs componentState)
      (AttemptResult.LeadsTo (Tracked policy) (Settles policy)
        fun exec : Exec I O => Kept policy exec.trace) := by
  refine Ensures.bind getBuffer_ensures fun buffer => ?_
  have held : Ensures (fun exec => buffer = exec.buffer ∧ Tracked policy exec)
      (skipCallbacks env buffer buffer.skips)
      (fun _ exec => buffer.skips = exec.buffer.skips ∧ Tracked policy exec) := by
    rintro exec ⟨rfl, tracked⟩
    have still := mild_still.skipCallbacks env exec.buffer exec.buffer.skips exec
    exact ⟨still.skips.symm, tracked.still still⟩
  have rollsBack : ∀ outcome, Ensures
      (fun exec => buffer.skips = exec.buffer.skips ∧ Tracked policy exec)
      (rollBackTo env outcome) (AttemptResult.LeadsTo (Tracked policy) (Settles policy)
        fun exec => Kept policy exec.trace) :=
    fun outcome => (rollBackTo_leads env kept_calm outcome).weaken (fun _ holds => holds.2.kept)
      fun _ _ leads => leads
  refine Ensures.bind held fun callbacks => ?_
  split
  · exact rollsBack _
  · split
    · exact rollsBack _
    · rename_i counts _
      split
      · exact rollsBack _
      · rename_i accepted counted
        have committing : Ensures
            (fun exec => buffer.skips = exec.buffer.skips ∧ Tracked policy exec)
            (ask env (.commit counts accepted componentState buffer.slots))
            (fun answer exec => Kept policy exec.trace ∧
              ∀ receipt, answer = .ok receipt → JustCommitted policy exec) := by
          rintro exec ⟨skips, tracked⟩
          have here : KeptAt policy exec.trace
              ⟨.commit counts accepted componentState buffer.slots,
                env exec.trace (.commit counts accepted componentState buffer.slots)⟩ := by
            intro stays
            rw [acceptedFaultProgress_read counted, skips]
            exact tracked.skips stays
          have kept := Throughout.snoc tracked.kept here
          refine ⟨kept, ?_⟩
          intro receipt answered
          change env exec.trace (.commit counts accepted componentState buffer.slots) =
            .ok receipt at answered
          refine ⟨⟨kept, ?_⟩, exec.trace, counts, accepted, componentState, buffer.slots,
            receipt, ?_⟩
          · change passedReads (exec.trace ++ [_]) = []
            rw [passedReads_snoc, answered]
            rfl
          · change exec.trace ++ [_] = _
            rw [answered]
        refine Ensures.bind committing fun answer => ?_
        cases answer with
        | ok receipt =>
          exact (acceptCommit_tracks env counts accepted receipt).weaken
            (fun _ holds => holds.2 receipt rfl) fun _ _ leads => leads
        | error failure =>
          have rolling : ∀ outcome, Ensures (fun exec : Exec I O => Kept policy exec.trace ∧
              ∀ receipt, (.error failure : Except TransactionError CommitReceipt) = .ok receipt →
                JustCommitted policy exec) (rollBackTo env outcome)
              (AttemptResult.LeadsTo (Tracked policy) (Settles policy)
                fun exec => Kept policy exec.trace) :=
            fun outcome => (rollBackTo_leads env kept_calm outcome).weaken
              (fun _ holds => holds.1) fun _ _ leads => leads
          cases failure with
          | commitOutcomeUnknown => exact Ensures.pure fun _ holds => holds.1
          | notCommitted => exact rolling _
          | componentStateUnsupported => exact rolling _

end Commit

section Loop

variable (env : Environment I O) {components : Components} {deliveryMode : ChunkDeliveryMode}

private theorem tracked_calm : Calm (Tracked (I := I) (O := O) policy) :=
  fun _ _ tracked still => tracked.still still

/-- The account of the reads and the retries as an invariant of the loop. -/
def faultRule (governed : components.fault = some (policyRuntime policy deliveryMode)) :
    LoopRule env components where
  going := Tracked policy
  begun := Tracked policy
  ready _ _ := Tracked policy
  retrying request exec :=
    Tracked policy exec ∧ 0 < request.ordinal ∧ request.ordinal ≤ policy.retryLimit
  closed := Settles policy
  ended exec := Kept policy exec.trace
  goingCalm := tracked_calm
  begunCalm := tracked_calm
  retryingPauses _ := Calm.pauses fun _ _ retrying still =>
    ⟨retrying.1.still still, retrying.2⟩
  closedCalm _ _ settles still := settles.still still
  endedCalm := kept_calm
  goingEnds _ tracked := tracked.kept
  begunEnds _ tracked := tracked.kept
  retryingEnds _ _ retrying := retrying.1.kept
  closedEnds _ settles := settles.kept
  begins _ _ tracked := tracked.snoc trivial rfl
  body began sequence fuel := ((trackedPhases policy).attemptBody env
      (readPhase_tracks env governed sequence) (processPhase_tracks env governed sequence)
      (writePhase_tracks env governed sequence) began fuel).weaken
    (fun _ tracked => tracked) fun result exec tracks => by
      match result with
      | none => exact tracks.kept
      | some (verdict, _, _) => cases verdict <;> exact tracks
  reserves _ _ retrying := retrying.1.snoc retrying.2 rfl
  refuses _ _ _ retrying := Throughout.snoc retrying.1.kept retrying.2
  commits := commitAttempt_tracks env
  renews _ _ _ settles := ⟨settles.kept, fun _ => (congrArg List.length settles.none).symm⟩

end Loop

/-- Every run under a policy keeps its account, however far it gets. -/
theorem run_kept (env : Environment I O) (components : Components) (policy : FaultPolicy)
    (deliveryMode : ChunkDeliveryMode) (fuel rounds : Nat) (checkpointDigest : Digest)
    (state : ExecutionState) :
    Kept policy (run env (components.governed policy deliveryMode) fuel rounds checkpointDigest
      state).2.trace := by
  have start : Tracked policy (⟨[], ChunkBuffer.new I O components.baseOrdinal checkpointDigest,
      state⟩ : Exec I O) := ⟨throughout_nil, fun _ => rfl⟩
  have governed : (components.governed policy deliveryMode).fault =
      some (policyRuntime policy deliveryMode) := rfl
  exact (faultRule env governed).runChunkLoop_ends fuel 0 rounds _ start

end OxideBatch.Chunk
