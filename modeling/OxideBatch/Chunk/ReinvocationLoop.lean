import OxideBatch.Chunk.Reinvocation

/-! The chunk loop keeps the account of its component calls: a call is made again behind a
failure only once the store has granted a retry to its unit. -/

namespace OxideBatch.Chunk

open OxideBatch.Core OxideBatch.Lib Program

variable {I O : Type}

section Lulls

variable (env : Environment I O) (components : Components)

private theorem mild_lull : Mild (Lull : Exec I O → Exec I O → Prop) where
  refl exec := ⟨⟨[], (List.append_nil _).symm, by simp⟩, rfl, rfl⟩
  trans left right := by
    obtain ⟨front, leftTrace, leftLull⟩ := left.events
    obtain ⟨back, rightTrace, rightLull⟩ := right.events
    refine ⟨⟨front ++ back, ?_, ?_⟩, right.slots.trans left.slots, right.place.trans left.place⟩
    · rw [rightTrace, leftTrace, List.append_assoc]
    · intro event member
      rcases List.mem_append.mp member with inFront | inBack
      · exact leftLull event inFront
      · exact rightLull event inBack
  ask exec query answer mild := by
    refine ⟨⟨[⟨query, answer⟩], rfl, List.forall_mem_singleton.mpr ?_⟩, rfl, rfl⟩
    cases query <;> first | rfl | cases mild
  state exec state _ := ⟨⟨[], (List.append_nil _).symm, by simp⟩, rfl, rfl⟩
  retry exec retry := ⟨⟨[], (List.append_nil _).symm, by simp⟩, rfl, rfl⟩

/-- The classification of a fault settles nothing. -/
private theorem lull_classifyFault (phase : FaultPhase) (category : FailureCategory) (key : Digest)
    (pass : FaultDescriptor → ItemPass I O) (entered : Nat) (evidence : FaultEvidence)
    (sequence : Nat) :
    Along Lull (classifyFault env components phase category key pass entered evidence sequence) := by
  refine mild_lull.classifyFault env components (fun pass entered exec => ?_) _ _ _ _ _ _ _
  exact ⟨⟨[⟨.after pass entered, _⟩], rfl, List.forall_mem_singleton.mpr rfl⟩, rfl, rfl⟩

end Lulls

section Phases

variable (env : Environment I O) {components : Components} {runtime : FaultRuntime}

/-- The account between the calls of a chunk. -/
abbrev AtWork (components : Components) : Exec I O → Prop := Working components 0 none none

/-- A component call for a unit has just failed. -/
def Struck (components : Components) (unit : WorkUnit) (key : Digest) (exec : Exec I O) : Prop :=
  Working components 0 (some unit) (some unit) exec ∧
    key = exec.buffer.unitKey components unit

/-- A retry is asked for under the key of the unit that failed. -/
def Asking (components : Components) (request : RetryRequest) (exec : Exec I O) : Prop :=
  ∃ failing unit, Working components 0 failing (some unit) exec ∧
    request.key = exec.buffer.unitKey components unit

/-- What a verdict leaves of the account. -/
def Verdict.Works (components : Components) (verdict : Verdict) (exec : Exec I O) : Prop :=
  match verdict with
  | .commit | .replay => AtWork components exec
  | .retry request => Asking components request exec
  | .terminal _ => AllRepaid components exec.trace

/-- The account of an attempt up to its verdict. -/
def accountedPhases (components : Components) : PhaseRule I O where
  kept := AtWork components
  leaves verdict := verdict.Works components
  ready _ := AtWork components
  step := Still
  settling := mild_still
  keeps _ _ working still := working.still still
  goesOn _ := Iff.rfl
  ends _ _ working := working.history

abbrev UnitWorks (components : Components) : Option Verdict → Exec I O → Prop :=
  (accountedPhases components).unit

private theorem atWork_keeps {program : ChunkM I O α} (still : Along Still program) :
    Ensures (AtWork components) program (fun _ => AtWork components) :=
  still.ensures Working.still

theorem Struck.lull {unit : WorkUnit} {key : Digest} {before after : Exec I O}
    (struck : Struck components unit key before) (lull : Lull before after) :
    Struck components unit key after := by
  refine ⟨struck.1.lull lull, struck.2.trans ?_⟩
  rw [unitKey_eq lull.place lull.slots]

/-- A skip settles the unit that failed. -/
private theorem resolveKey_settles (governed : components.fault = some runtime) (unit : WorkUnit)
    (key : Digest) :
    Ensures (Struck components unit key) (resolveKey env components key)
      (fun _ => Working components unit.taken none none) := by
  intro exec struck
  simp only [resolveKey, governed]
  exact struck.1.snoc struck.1.toBalance.skip

/-- What the classification of a failed call leads to: nothing, a retry of its unit, or a
decision that leaves the account to be settled. -/
private theorem classifyFault_struck (phase : FaultPhase) (category : FailureCategory)
    (unit : WorkUnit)
    (key : Digest) (pass : FaultDescriptor → ItemPass I O) (entered : Nat)
    (evidence : FaultEvidence) (sequence : Nat) :
    Ensures (Struck components unit key)
      (classifyFault env components phase category key pass entered evidence sequence)
      (fun _ => Struck components unit key) :=
  (lull_classifyFault env components _ _ _ _ _ _ _).ensures Struck.lull

private theorem readFault_works (governed : components.fault = some runtime) (sequence record : Nat)
    (key : Digest) (entered : Nat) (invoked : Invoked (ReadOutcome I) ReaderError) :
    Ensures (Struck components (.read record) key)
      (readFault env components sequence key entered invoked) (UnitWorks components) := by
  refine Ensures.bind (classifyFault_struck env _ _ _ _ _ _ _ _) fun answer => ?_
  split
  · exact Ensures.pure fun _ struck => struck.1.history
  · split
    · exact Ensures.pure fun _ struck => ⟨_, _, struck⟩
    · refine Ensures.bind (resolveKey_settles env governed _ key) fun _ => ?_
      refine Ensures.bind (modifyBuffer_ensures fun exec working => working.passed) fun _ => ?_
      refine Ensures.pure fun _ working => ?_
      split
      · exact working
      · exact working
    · exact Ensures.pure fun _ struck => struck.1.history
    · exact Ensures.pure fun _ struck => struck.1.history
    · exact Ensures.pure fun _ struck => struck.1.history

/-- A reader call that returned. -/
def Returned (components : Components) (call : Nat) (key : Digest)
    (answer : Invoked (ReadOutcome I) ReaderError) (exec : Exec I O) : Prop :=
  match answer with
  | .completed (.item _) => Working components 1 none none exec ∧
      (∀ slot ∈ exec.buffer.slots, slot.call < call) ∧ call < readCount exec.trace
  | .completed _ => AtWork components exec
  | _ => ∃ record, Struck components (.read record) key exec

theorem Working.read {exec : Exec I O} (working : AtWork components exec)
    (answer : Invoked (ReadOutcome I) ReaderError) :
    Returned components (readCount exec.trace)
      (components.retryKey .read exec.buffer.checkpointDigest exec.buffer.readOrdinal) answer
      { exec with trace := exec.trace ++ [⟨.read (readCount exec.trace), answer⟩] } := by
  have called := working.snoc (@Balance.call I O components exec
    ⟨.read (readCount exec.trace), answer⟩ _ working.toBalance rfl fun _ same => by cases same)
  have keyed : components.retryKey .read exec.buffer.checkpointDigest exec.buffer.readOrdinal =
      exec.buffer.unitKey components (.read (labour exec.trace).records) := by
    unfold ChunkBuffer.unitKey Components.unitKey
    dsimp only
    rw [working.records]
    rfl
  cases answer with
  | completed outcome =>
    cases outcome with
    | item item =>
      refine ⟨called, working.fresh, ?_⟩
      change _ < readCount (exec.trace ++ [_])
      simp [readCount, Event.isRead]
    | endOfInput => exact called
    | stopped => exact called
  | failed error => exact ⟨_, called, keyed⟩
  | panicked => exact ⟨_, called, keyed⟩

/-- A record that was read waits for the listeners of its read. -/
private theorem settleUnit_delivered {item : I} {call : Nat} {key : Digest} (pass : ItemPass I O)
    (entered : Nat) :
    Ensures (Returned components call key (.completed (.item item)))
      (settleUnit env components pass entered key)
      (fun _ => Returned components call key (.completed (.item item))) := by
  intro exec returned
  have still := still_settleUnit env components pass entered key exec
  obtain ⟨events, trace, _⟩ := still.events
  refine ⟨returned.1.still still, ?_, ?_⟩
  · rw [still.slots]
    exact returned.2.1
  · rw [trace]
    refine returned.2.2.trans_le ?_
    unfold readCount
    rw [List.countP_append]
    exact Nat.le_add_right _ _

private theorem readOne_works (governed : components.fault = some runtime) (sequence : Nat) :
    Ensures (AtWork components) (readOne env components sequence) (UnitWorks components) := by
  refine Ensures.bind getBuffer_ensures fun buffer => ?_
  have entering : ∀ pass, Ensures (fun exec => buffer = exec.buffer ∧ AtWork components exec)
      (beforePass env pass)
      (fun _ exec => buffer.place = exec.buffer.place ∧ AtWork components exec) := by
    rintro pass exec ⟨rfl, working⟩
    have still := mild_still.beforePass env pass exec
    exact ⟨still.place.symm, working.still still⟩
  refine Ensures.bind (entering _) fun before => ?_
  split
  · exact Ensures.pure fun _ holds => holds.2.history
  · refine Ensures.bind Ensures.get fun now => ?_
    have reading : Ensures
        (fun exec => now = exec ∧ buffer.place = exec.buffer.place ∧ AtWork components exec)
        (ask env (.read (readCount now.trace)))
        (Returned components (readCount now.trace)
          (retryKey components .read buffer.checkpointDigest buffer.readOrdinal)) := by
      rintro exec ⟨rfl, place, working⟩
      obtain ⟨digest, _, read⟩ := ChunkPlace.mk.inj place
      have returned := working.read (env now.trace (.read (readCount now.trace)))
      rw [← digest, ← read] at returned
      exact returned
    refine Ensures.bind reading fun answer => ?_
    split
    · refine Ensures.bind (settleUnit_delivered env _ _) fun ended => ?_
      split
      · exact Ensures.pure fun _ returned => returned.1.history
      · exact fun _ returned => returned.1.delivered returned.2.1 returned.2.2
    · exact fun _ working => ⟨working.toBalance.recast rfl rfl rfl, working.history⟩
    · exact Ensures.pure fun _ working => working.history
    · rintro exec ⟨record, struck⟩
      exact readFault_works env governed _ record _ _ _ exec struck
    · rintro exec ⟨record, struck⟩
      exact readFault_works env governed _ record _ _ _ exec struck

private theorem processFault_works (governed : components.fault = some runtime)
    (sequence index call : Nat) (item : I) (key : Digest) (entered : Nat)
    (invoked : Invoked (ProcessOutcome O) ProcessorError) :
    Ensures (Struck components (.process call) key)
      (processFault env components sequence index item key entered invoked)
      (UnitWorks components) := by
  refine Ensures.bind (classifyFault_struck env _ _ _ _ _ _ _ _) fun answer => ?_
  split
  · exact Ensures.pure fun _ struck => struck.1.history
  · split
    · exact Ensures.pure fun _ struck => ⟨_, _, struck⟩
    · refine Ensures.bind (resolveKey_settles env governed _ key) fun _ => ?_
      refine Ensures.bind (modifyBuffer_ensures fun exec working =>
        working.marked (records_markSkipped exec.buffer index) rfl) fun _ => ?_
      refine Ensures.pure fun _ working => ?_
      split
      · exact working
      · exact working
    · exact Ensures.pure fun _ struck => struck.1.history
    · exact Ensures.pure fun _ struck => struck.1.history
    · exact Ensures.pure fun _ struck => struck.1.history

/-- A processor or writer call that returned. -/
def Replied (components : Components) (unit : WorkUnit) (key : Digest)
    (answer : Invoked α ε) (exec : Exec I O) : Prop :=
  match answer with
  | .completed _ => AtWork components exec
  | _ => Struck components unit key exec

theorem Working.process {exec : Exec I O} {slot : ItemSlot I} (working : AtWork components exec)
    (member : slot ∈ exec.buffer.slots)
    (answer : Invoked (ProcessOutcome O) ProcessorError) :
    Replied components (.process slot.call)
      (components.retryKey .process exec.buffer.checkpointDigest slot.ordinal) answer
      { exec with trace := exec.trace ++ [⟨.process slot.call slot.item, answer⟩] } := by
  have called := working.snoc (@Balance.call I O components exec
    ⟨.process slot.call slot.item, answer⟩ _ working.toBalance rfl fun call same => by
      obtain rfl := WorkUnit.process.inj same
      exact List.mem_map_of_mem member)
  have keyed : components.retryKey .process exec.buffer.checkpointDigest slot.ordinal =
      exec.buffer.unitKey components (.process slot.call) := by
    unfold ChunkBuffer.unitKey Components.unitKey
    dsimp only
    rw [ordinalOf_mem working.distinct member]
  cases answer with
  | completed outcome => exact called
  | failed error => exact ⟨called, keyed⟩
  | panicked => exact ⟨called, keyed⟩

theorem Working.write {exec : Exec I O} (working : AtWork components exec)
    (batch : List (Nat × O)) (answer : Invoked WriteOutcome WriterError) :
    Replied components .write
      (components.retryKey .write exec.buffer.checkpointDigest exec.buffer.baseOrdinal) answer
      { exec with trace := exec.trace ++ [⟨.write batch, answer⟩] } := by
  have called := working.snoc (@Balance.call I O components exec ⟨.write batch, answer⟩ _
    working.toBalance rfl fun _ same => by cases same)
  cases answer with
  | completed outcome => exact called
  | failed error => exact ⟨called, rfl⟩
  | panicked => exact ⟨called, rfl⟩

private theorem processOne_works (governed : components.fault = some runtime) (sequence index : Nat)
    (slot : ItemSlot I) (outputs : AttemptOutputs O) :
    Ensures (fun exec => AtWork components exec ∧ slot ∈ exec.buffer.slots)
      (processOne env components sequence index slot outputs)
      (fun result => UnitWorks components result.1) := by
  have keeps : ∀ {β : Type} {program : ChunkM I O β}, Along Still program →
      Ensures (fun exec => AtWork components exec ∧ slot ∈ exec.buffer.slots) program
        (fun _ exec => AtWork components exec ∧ slot ∈ exec.buffer.slots) := by
    intro β program still
    exact still.ensures fun holds moved => ⟨holds.1.still moved, moved.slots ▸ holds.2⟩
  refine Ensures.bind (keeps (mild_still.attemptStop env components)) fun stop => ?_
  split
  · exact Ensures.pure fun _ holds => holds.1.history
  · refine Ensures.bind getBuffer_ensures fun buffer => ?_
    have entering : ∀ pass, Ensures
        (fun exec => buffer = exec.buffer ∧ AtWork components exec ∧ slot ∈ exec.buffer.slots)
        (beforePass env pass)
        (fun _ exec => buffer.place = exec.buffer.place ∧ AtWork components exec ∧
          slot ∈ exec.buffer.slots) := by
      rintro pass exec ⟨rfl, working, member⟩
      have still := mild_still.beforePass env pass exec
      exact ⟨still.place.symm, working.still still, still.slots ▸ member⟩
    refine Ensures.bind (entering _) fun before => ?_
    split
    · exact Ensures.pure fun _ holds => holds.2.1.history
    · have processing : Ensures
          (fun exec => buffer.place = exec.buffer.place ∧ AtWork components exec ∧
            slot ∈ exec.buffer.slots)
          (ask env (.process slot.call slot.item))
          (Replied components (.process slot.call)
            (retryKey components .process buffer.checkpointDigest slot.ordinal)) := by
        rintro exec ⟨place, working, member⟩
        obtain ⟨digest, _, _⟩ := ChunkPlace.mk.inj place
        have answered := working.process member (env exec.trace (.process slot.call slot.item))
        rw [← digest] at answered
        exact answered
      refine Ensures.bind processing fun answer => ?_
      split
      · refine Ensures.bind (atWork_keeps (still_settleUnit env components _ _ _)) fun ended => ?_
        split
        · exact Ensures.pure fun _ working => working.history
        · exact Ensures.pure fun _ working => working
      · refine Ensures.bind (atWork_keeps (still_settleUnit env components _ _ _)) fun ended => ?_
        split
        · exact Ensures.pure fun _ working => working.history
        · exact Ensures.pure fun _ working => working
      · exact Ensures.pure fun _ working => working.history
      · refine Ensures.bind (processFault_works env governed _ _ _ _ _ _ _) fun verdict => ?_
        exact Ensures.pure fun _ works => works
      · refine Ensures.bind (processFault_works env governed _ _ _ _ _ _ _) fun verdict => ?_
        exact Ensures.pure fun _ works => works

private theorem updateStreams_works :
    Ensures (AtWork components) (updateStreams env 0 components.streams [] : ChunkM I O _)
      (accountedPhases components).written :=
  (accountedPhases components).updateStreams env (fun _ _ working => working) _ _ _

private theorem writeFault_works (governed : components.fault = some runtime) (sequence : Nat)
    (outputs : AttemptOutputs O) (key : Digest) (entered : Nat)
    (invoked : Invoked WriteOutcome WriterError) :
    Ensures (Struck components .write key)
      (writeFault env components sequence outputs key entered invoked)
      (fun verdict => (accountedPhases components).written (verdict, [])) := by
  refine Ensures.bind (classifyFault_struck env _ _ _ _ _ _ _ _) fun answer => ?_
  split
  · exact Ensures.pure fun _ struck => struck.1.history
  · split
    · exact Ensures.pure fun _ struck => ⟨_, _, struck⟩
    · split
      · exact Ensures.pure fun _ struck => struck.1.history
      · refine Ensures.bind (resolveKey_settles env governed _ key) fun _ => ?_
        exact fun exec working => working.marked (records_markSkipped exec.buffer _) rfl
    · exact Ensures.pure fun _ struck => struck.1.history
    · exact Ensures.pure fun _ struck => struck.1.history
    · exact Ensures.pure fun _ struck => struck.1.history

private theorem writePhase_works (governed : components.fault = some runtime) (sequence : Nat)
    (outputs : AttemptOutputs O) :
    Ensures (AtWork components) (writePhase env components sequence outputs)
      (accountedPhases components).written := by
  unfold writePhase
  split
  · exact updateStreams_works env
  · refine Ensures.bind (atWork_keeps (mild_still.attemptStop env components)) fun stop => ?_
    split
    · exact Ensures.pure fun _ working => working.history
    · refine Ensures.bind getBuffer_ensures fun buffer => ?_
      have keeps : ∀ {β : Type} {program : ChunkM I O β}, Along Still program →
          Ensures (fun exec => buffer.place = exec.buffer.place ∧ AtWork components exec) program
            (fun _ exec => buffer.place = exec.buffer.place ∧ AtWork components exec) := by
        intro β program still
        exact still.ensures fun holds moved =>
          ⟨holds.1.trans moved.place.symm, holds.2.still moved⟩
      refine Ensures.bind ((keeps (mild_still.beforePass env _)).weaken
        (fun exec holds => ⟨congrArg _ holds.1, holds.2⟩) fun _ _ holds => holds) fun before => ?_
      split
      · exact Ensures.pure fun _ holds => holds.2.history
      · refine Ensures.bind (keeps (still_ask env rfl)) fun business => ?_
        have writing : Ensures
            (fun exec => buffer.place = exec.buffer.place ∧ AtWork components exec)
            (ask env (.write outputs.values))
            (Replied components .write
              (retryKey components .write buffer.checkpointDigest buffer.baseOrdinal)) := by
          rintro exec ⟨place, working⟩
          obtain ⟨digest, base, _⟩ := ChunkPlace.mk.inj place
          have answered := working.write outputs.values (env exec.trace (.write outputs.values))
          rw [← digest, ← base] at answered
          exact answered
        refine Ensures.bind writing fun answer => ?_
        split
        · refine Ensures.bind (atWork_keeps (still_settleUnit env components _ _ _))
            fun ended => ?_
          split
          · exact Ensures.pure fun _ working => working.history
          · exact updateStreams_works env
        · exact Ensures.pure fun _ working => working.history
        · refine Ensures.bind (writeFault_works env governed _ _ _ _ _) fun verdict => ?_
          exact Ensures.pure fun _ works => works
        · refine Ensures.bind (writeFault_works env governed _ _ _ _ _) fun verdict => ?_
          exact Ensures.pure fun _ works => works

end Phases

section Commit

variable (env : Environment I O) {components : Components} {runtime : FaultRuntime}

/-- Behind a commit nothing has been done yet. -/
structure Renewed (components : Components) (exec : Exec I O) : Prop where
  history : AllRepaid components exec.trace
  idle : labour exec.trace = .start

theorem Renewed.still {before after : Exec I O} (renewed : Renewed components before)
    (still : Still before after) : Renewed components after := by
  obtain ⟨events, trace, calm⟩ := still.events
  constructor
  · rw [trace]
    exact renewed.history.calm calm
  · have settled : (labour before.trace).failing = none := by
      rw [renewed.idle]
      rfl
    rw [trace, labour_calm calm settled, renewed.idle]

private theorem allRepaid_calm : Calm fun exec : Exec I O => AllRepaid components exec.trace := by
  intro before after all still
  obtain ⟨events, trace, calm⟩ := still.events
  rw [trace]
  exact all.calm calm

private theorem acceptCommit_works (counts : ChunkCounts) (accepted : ChunkFaultProgress)
    (receipt : CommitReceipt) :
    Ensures (Renewed components) (acceptCommit env components counts accepted receipt)
      (AttemptResult.LeadsTo (AtWork components) (Renewed components)
        fun exec : Exec I O => AllRepaid components exec.trace) := by
  have reading : Ensures (Renewed components) (getState : ChunkM I O _)
      (fun _ => Renewed components) := fun _ renewed => renewed
  refine Ensures.bind reading fun state => ?_
  split
  · exact Ensures.pure fun _ renewed => renewed.history
  · have counting : ∀ change, Ensures (Renewed components) (modifyState change : ChunkM I O _)
        (fun _ => Renewed components) := fun _ _ renewed => ⟨renewed.history, renewed.idle⟩
    refine Ensures.bind (counting _) fun _ => ?_
    split
    · exact Ensures.pure fun _ renewed => renewed
    · intro exec renewed
      have idle : labour (exec.trace ++ [(⟨.clearResolved, ()⟩ : Event I O)]) = .start := by
        rw [labour_inside rfl, renewed.idle]
        rfl
      exact ⟨Throughout.snoc renewed.history (renewed.history.here.snoc rfl rfl), idle⟩

/-- A generation that has just been closed owes nothing. -/
private theorem repaid_commit {trace : Trace I O} {event : Event I O}
    (done : labour (trace ++ [event]) = .start) : Repaid components (trace ++ [event]) := by
  refine ⟨[], 0, fun _ => 0, fun unit => ?_⟩
  have nothing : retries unit (trace ++ [event]) = 0 := by
    change (labour (trace ++ [event])).retried.count unit = 0
    rw [done]
    rfl
  rw [nothing]
  exact Nat.zero_le _

theorem Working.commit {exec : Exec I O} (working : AtWork components exec) (counts : ChunkCounts)
    (progress : ChunkFaultProgress) (componentState : List ComponentStateEnvelope)
    (slots : List (ItemSlot I)) (answer : Except TransactionError CommitReceipt) :
    AllRepaid components
        (exec.trace ++ [⟨.commit counts progress componentState slots, answer⟩]) ∧
      ∀ receipt, answer = .ok receipt → Renewed components
        { exec with trace :=
            exec.trace ++ [⟨.commit counts progress componentState slots, answer⟩] } := by
  cases answer with
  | error failure =>
    refine ⟨Throughout.snoc working.history ?_, fun _ same => by cases same⟩
    exact working.history.here.snoc rfl rfl
  | ok receipt =>
    have done := @labour_commit I O counts progress componentState slots receipt exec.trace
    have all : AllRepaid components (exec.trace ++ [_]) :=
      Throughout.snoc working.history (repaid_commit done)
    exact ⟨all, fun _ _ => ⟨all, done⟩⟩

private theorem commitAttempt_works (outputs : AttemptOutputs O)
    (componentState : List ComponentStateEnvelope) :
    Ensures (AtWork components) (commitAttempt env components outputs componentState)
      (AttemptResult.LeadsTo (AtWork components) (Renewed components)
        fun exec : Exec I O => AllRepaid components exec.trace) := by
  have rollsBack : ∀ outcome, Ensures (AtWork components) (rollBackTo env outcome)
      (AttemptResult.LeadsTo (AtWork components) (Renewed components)
        fun exec : Exec I O => AllRepaid components exec.trace) :=
    fun outcome => (rollBackTo_leads env allRepaid_calm outcome).weaken
      (fun _ working => working.history) fun _ _ leads => leads
  refine Ensures.bind (atWork_keeps mild_still.getBuffer) fun buffer => ?_
  refine Ensures.bind (atWork_keeps (mild_still.skipCallbacks env buffer _)) fun callbacks => ?_
  split
  · exact rollsBack _
  · split
    · exact rollsBack _
    · rename_i counts _
      split
      · exact rollsBack _
      · rename_i accepted _
        have committing : Ensures (AtWork components)
            (ask env (.commit counts accepted componentState buffer.slots))
            (fun answer exec => AllRepaid components exec.trace ∧
              ∀ receipt, answer = .ok receipt → Renewed components exec) :=
          fun exec working => working.commit counts accepted componentState buffer.slots _
        refine Ensures.bind committing fun answer => ?_
        cases answer with
        | ok receipt =>
          exact (acceptCommit_works env counts accepted receipt).weaken
            (fun _ holds => holds.2 receipt rfl) fun _ _ leads => leads
        | error failure =>
          have rolling : ∀ outcome, Ensures (fun exec : Exec I O =>
              AllRepaid components exec.trace ∧ ∀ receipt,
                (.error failure : Except TransactionError CommitReceipt) = .ok receipt →
                  Renewed components exec) (rollBackTo env outcome)
              (AttemptResult.LeadsTo (AtWork components) (Renewed components)
                fun exec => AllRepaid components exec.trace) :=
            fun outcome => (rollBackTo_leads env allRepaid_calm outcome).weaken
              (fun _ holds => holds.1) fun _ _ leads => leads
          cases failure with
          | commitOutcomeUnknown => exact Ensures.pure fun _ holds => holds.1
          | notCommitted => exact rolling _
          | componentStateUnsupported => exact rolling _

end Commit

section Loop

variable (env : Environment I O) {components : Components} {runtime : FaultRuntime}

private theorem atWork_calm : Calm (AtWork (I := I) (O := O) components) :=
  fun _ _ working still => working.still still

theorem Asking.pauses (request : RetryRequest) :
    Pauses (Asking (I := I) (O := O) components request) := by
  rintro exec query answer pause ⟨failing, unit, working, keyed⟩
  cases query with
  | rollback => exact ⟨none, unit, working.snoc (working.toBalance.leave rfl rfl), keyed⟩
  | stop => exact ⟨failing, unit, working.snoc (working.toBalance.idle rfl rfl), keyed⟩
  | _ => cases pause

/-- The next chunk starts with nothing done. -/
theorem Renewed.renews {exec : Exec I O} (renewed : Renewed components exec) (ordinal : Nat)
    (digest : Digest) :
    AtWork components { exec with buffer := ChunkBuffer.new I O ordinal digest } := by
  have balance : Balance components 0 none none
      { exec with buffer := ChunkBuffer.new I O ordinal digest } := by
    refine ⟨?_, ?_, fun unit => ?_, fun _ owes => (by cases owes), fun call here => ?_,
      List.nodup_nil, fun _ member => (by cases member)⟩
    · change (labour exec.trace).failing = none
      rw [renewed.idle]
      rfl
    · change ordinalAt _ (labour exec.trace).records = _
      rw [renewed.idle]
      rfl
    · change (labour exec.trace).due unit ≤ _
      rw [renewed.idle]
      exact Nat.zero_le _
    · change WorkUnit.process call ∈ (labour exec.trace).unsettled ∨
        .process call ∈ (labour exec.trace).retried at here
      rw [renewed.idle] at here
      rcases here with member | member
      · cases member
      · cases member
  exact ⟨balance, renewed.history⟩

/-- The account of the component calls as an invariant of the loop. -/
def reinvocationRule (governed : components.fault = some runtime) : LoopRule env components where
  going := AtWork components
  begun := AtWork components
  ready _ _ := AtWork components
  retrying := Asking components
  closed := Renewed components
  ended exec := AllRepaid components exec.trace
  goingCalm := atWork_calm
  begunCalm := atWork_calm
  retryingPauses := Asking.pauses
  closedCalm _ _ renewed still := renewed.still still
  endedCalm := allRepaid_calm
  goingEnds _ working := working.history
  begunEnds _ working := working.history
  retryingEnds _ _ asking := by
    obtain ⟨_, _, working, _⟩ := asking
    exact working.history
  closedEnds _ renewed := renewed.history
  begins _ _ working := working.snoc (working.toBalance.leave rfl rfl)
  body began sequence fuel := ((accountedPhases components).attemptBody env
      ((accountedPhases components).readPhase env (readOne_works env governed sequence))
      ((accountedPhases components).processPhase env fun index slot outputs =>
        processOne_works env governed sequence index slot outputs)
      (writePhase_works env governed sequence) began fuel).weaken
    (fun _ working => working) fun result exec works => by
      match result with
      | none => exact works.history
      | some (verdict, _, _) => cases verdict <;> exact works
  reserves _ _ asking := by
    obtain ⟨_, _, working, keyed⟩ := asking
    exact working.snoc (working.toBalance.grant keyed)
  refuses _ _ _ asking := by
    obtain ⟨_, _, working, _⟩ := asking
    exact Throughout.snoc working.history (working.history.here.snoc rfl rfl)
  commits := commitAttempt_works env
  renews _ ordinal digest renewed := renewed.renews ordinal digest

end Loop

/-- However far a run gets, its component calls are paid for. -/
theorem run_repaid (env : Environment I O) {components : Components} {runtime : FaultRuntime}
    (governed : components.fault = some runtime) (fuel rounds : Nat) (checkpointDigest : Digest)
    (state : ExecutionState) :
    AllRepaid components (run env components fuel rounds checkpointDigest state).2.trace := by
  have start : Renewed components (⟨[], ChunkBuffer.new I O components.baseOrdinal
      checkpointDigest, state⟩ : Exec I O) := ⟨throughout_nil, rfl⟩
  exact (reinvocationRule env governed).runChunkLoop_ends fuel 0 rounds _
    (start.renews components.baseOrdinal checkpointDigest)

end OxideBatch.Chunk
