import OxideBatch.Chunk.Orderly

/-! The chunk loop against the protocol of its attempts: every transaction is resolved at
most once, every policy that began is ended, and the report is what the receipts add up
to. -/

namespace OxideBatch.Chunk

open OxideBatch.Core OxideBatch.Lib Program

variable {I O : Type}

section Books

/-- What the accounts of a run are read from. -/
structure Books (O : Type) where
  receipts : List Receipt
  tally : Tally
  skips : List (PendingSkip O)
  unknown : Bool

def booksOf (exec : Exec I O) : Books O :=
  ⟨receipts exec.trace, exec.state.tally, exec.buffer.skips, unknownFault exec.trace⟩

def ChunkExecutionReport.tally (report : ChunkExecutionReport) : Tally :=
  ⟨report.committedCounts, report.committedChunks, report.skipCounts⟩

variable (env : Environment I O) {components : Components} {standing : Standing} {owes : Bool}
  {books : Books O}

/-- An orderly run with given books. -/
def Filed (components : Components) (standing : Standing) (owes : Bool) (books : Books O)
    (exec : Exec I O) : Prop :=
  Orderly components standing owes exec ∧ booksOf exec = books

private theorem modifyState_files {change : ExecutionState → ExecutionState}
    (same : ∀ state, (change state).tally = state.tally) :
    Ensures (Filed components standing owes books) (modifyState change : ChunkM I O Unit)
      (fun _ => Filed components standing owes books) := by
  rintro exec ⟨orderly, rfl⟩
  refine ⟨⟨orderly.proper, orderly.stands, orderly.owed, orderly.valid⟩, ?_⟩
  simp only [modifyState, booksOf, same]

/-- A call that changes no books. -/
theorem Filed.ask {exec : Exec I O} {event : Event I O} {standing' : Standing} {owes' : Bool}
    (filed : Filed components standing owes books exec)
    (proper : ProperAt components exec.trace event)
    (stands : standingStep standing event = standing') (owed : owesStep owes event = owes')
    (unpaid : event.receipt = none)
    (unknown : ∀ held, unknownStep held event = held) :
    Filed components standing' owes' books { exec with trace := exec.trace ++ [event] } := by
  obtain ⟨orderly, rfl⟩ := filed
  have same : receipts (exec.trace ++ [event]) = receipts exec.trace := by
    rw [receipts_snoc, unpaid]
    exact List.append_nil _
  refine ⟨⟨orderly.proper.snoc proper, ?_, ?_, ?_⟩, ?_⟩
  · change standingOf (exec.trace ++ [event]) = standing'
    rw [standingOf_snoc, orderly.stands, stands]
  · change owesEnd (exec.trace ++ [event]) = owes'
    rw [owesEnd_snoc, orderly.owed, owed]
  · rw [same]
    exact orderly.valid
  · change Books.mk (receipts (exec.trace ++ [event])) exec.state.tally exec.buffer.skips
      (unknownFault (exec.trace ++ [event])) = booksOf exec
    rw [same, unknownFault_snoc, unknown]
    rfl

private theorem runAfterListeners_files (sequence : Nat) {outcome : ChunkAttemptOutcome}
    (truthful : outcome = .committed ↔ standing = .closed .committed) (indices : List Nat) :
    Ensures (Filed components standing owes books)
      (runAfterListeners env sequence outcome indices)
      (fun _ => Filed components standing owes books) := by
  induction indices with
  | nil => exact Ensures.pure fun _ filed => filed
  | cons index indices ih =>
    have asking : Ensures (Filed components standing owes books)
        (ask env (.afterChunk index sequence outcome))
        (fun _ => Filed components standing owes books) := by
      intro exec filed
      have here : standingOf exec.trace = standing := filed.1.stands
      refine filed.ask ?_ rfl rfl rfl fun _ => rfl
      change outcome = .committed ↔ standingOf exec.trace = .closed .committed
      rw [here]
      exact truthful
    refine Ensures.bind asking fun answer => Ensures.bind ih fun later => ?_
    split
    · exact Ensures.pure fun _ filed => filed
    · exact Ensures.pure fun _ filed => filed

/-- Finishing pays the end that a begun policy is owed. -/
private theorem finishPolicy_files {outcome : ChunkAttemptOutcome}
    (truthful : outcome = .committed ↔ standing = .closed .committed) :
    Ensures (Filed components standing owes books) (finishPolicy env owes outcome)
      (fun _ => Filed components standing false books) := by
  unfold finishPolicy
  cases owes with
  | false => exact Ensures.pure fun _ filed => filed
  | true =>
    have asking : Ensures (Filed components standing true books) (ask env (.policyEnd outcome))
        (fun _ => Filed components standing false books) := by
      intro exec filed
      have here : standingOf exec.trace = standing := filed.1.stands
      refine filed.ask ?_ rfl rfl rfl fun _ => rfl
      change owesEnd exec.trace = true ∧
        (outcome = .committed ↔ standingOf exec.trace = .closed .committed)
      rw [here]
      exact ⟨filed.1.owed, truthful⟩
    refine Ensures.bind asking fun ended => ?_
    exact Ensures.pure fun _ filed => filed

/-- An attempt that did not commit ends its policy as unknown when it is dropped. -/
private theorem dropPolicy_files (resolved : standing ≠ .closed .committed) :
    Ensures (Filed components standing owes books) (finishPolicy env owes .unknown)
      (fun _ => Filed components standing false books) :=
  finishPolicy_files env (by simp [resolved])

/-- A filed run whose report shows the books. -/
def Reports (components : Components) (standing : Standing) (books : Books O)
    (report : ChunkExecutionReport) (exec : Exec I O) : Prop :=
  Filed components standing false books exec ∧ report.tally = books.tally

private theorem reportWith_files (outcome : ChunkExecutionOutcome)
    (original : Option ChunkExecutionOutcome) :
    Ensures (Filed components standing owes books) (reportWith outcome original : ChunkM I O _)
      (fun report exec => (Filed components standing owes books exec ∧
        report.tally = books.tally) ∧ report.outcome = outcome) := by
  rintro exec ⟨orderly, rfl⟩
  exact ⟨⟨⟨orderly, rfl⟩, rfl⟩, rfl⟩

private theorem closeAttempt_files (sequence : Nat) {attemptOutcome : ChunkAttemptOutcome}
    (truthful : attemptOutcome = .committed ↔ standing = .closed .committed)
    (replaced : Option ChunkExecutionOutcome) :
    Ensures (Filed components standing owes books)
      (closeAttempt env components owes sequence attemptOutcome replaced)
      (fun report exec => Filed components standing false books exec ∧
        ∀ made, report = some made → made.tally = books.tally) := by
  refine Ensures.bind (runAfterListeners_files env sequence truthful _) fun failures => ?_
  refine Ensures.bind (finishPolicy_files env truthful) fun panicked => ?_
  cases failures with
  | cons first rest =>
    refine Ensures.bind (modifyState_files fun _ => rfl) fun _ => ?_
    refine Ensures.bind (reportWith_files _ _) fun report => ?_
    refine Ensures.pure fun _ holds => ⟨holds.1.1, ?_⟩
    intro made same
    cases same
    exact holds.1.2
  | nil =>
    dsimp only
    split
    · refine Ensures.bind (reportWith_files _ _) fun report => ?_
      refine Ensures.pure fun _ holds => ⟨holds.1.1, ?_⟩
      intro made same
      cases same
      exact holds.1.2
    · exact Ensures.pure fun _ filed => ⟨filed, by simp⟩

/-- A failed attempt is closed, and an unknown outcome is reported as it is. -/
private theorem finishFailedAttempt_files (sequence : Nat) {attemptOutcome : ChunkAttemptOutcome}
    (truthful : attemptOutcome = .committed ↔ standing = .closed .committed)
    (outcome : ChunkExecutionOutcome) :
    Ensures (Filed components standing owes books)
      (finishFailedAttempt env components owes sequence attemptOutcome outcome)
      (fun report exec => Reports components standing books report exec ∧
        (outcome = .unknown → report.outcome = .unknown)) := by
  refine Ensures.bind (closeAttempt_files env sequence truthful _) fun closed => ?_
  have reporting : Ensures (fun exec => Filed components standing false books exec ∧
        ∀ made, closed = some made → made.tally = books.tally)
      (reportWith outcome none : ChunkM I O _) (fun report exec =>
        Reports components standing books report exec ∧
          (outcome = .unknown → report.outcome = .unknown)) := by
    rintro exec ⟨filed, _⟩
    obtain ⟨reports, same⟩ := reportWith_files outcome none exec filed
    exact ⟨reports, fun unknown => same.trans unknown⟩
  cases closed with
  | none => exact reporting
  | some report =>
    dsimp only
    split
    · exact reporting
    · rename_i known
      exact Ensures.pure fun _ holds => ⟨⟨holds.1, holds.2 report rfl⟩, fun same =>
        absurd same known⟩

end Books

section Attempt

variable (env : Environment I O) {limit : Nat} {components : Components} {inherited : SkipCounts}
  {standing : Standing} {owes : Bool}

/-- Books that are balanced: pending skips within the limit, receipts counted. -/
structure Balanced (limit : Nat) (inherited : SkipCounts) (books : Books O) : Prop where
  budget : (books.tally.skips.plus (pendingSkips books.skips)).total ≤ limit
  tallied : Tallied inherited books.receipts books.tally

theorem Steady.balanced {exec : Exec I O}
    (steady : Steady limit components inherited standing owes exec) :
    Balanced limit inherited (booksOf exec) :=
  ⟨steady.budget, steady.tallied⟩

theorem Filed.steady {exec : Exec I O} {books : Books O}
    (filed : Filed components standing owes books exec) (balanced : Balanced limit inherited books) :
    Steady limit components inherited standing owes exec := by
  obtain ⟨orderly, rfl⟩ := filed
  exact ⟨orderly, balanced.budget, balanced.tallied⟩

theorem Filed.assured {exec : Exec I O} {books : Books O}
    (filed : Filed components standing owes books exec) (balanced : Balanced limit inherited books)
    (calm : components.fault.isSome = true → books.unknown = false) :
    Assured limit components inherited standing owes exec := by
  refine ⟨filed.steady balanced, fun installed => ?_⟩
  obtain ⟨_, rfl⟩ := filed
  exact calm installed

/-- A call of an assured run that changes no books. -/
theorem Assured.ask {exec : Exec I O} {event : Event I O} {standing' : Standing} {owes' : Bool}
    (assured : Assured limit components inherited standing owes exec)
    (proper : ProperAt components exec.trace event)
    (stands : standingStep standing event = standing') (owed : owesStep owes event = owes')
    (unpaid : event.receipt = none) (unknown : ∀ held, unknownStep held event = held) :
    Assured limit components inherited standing' owes'
      { exec with trace := exec.trace ++ [event] } := by
  have filed : Filed components standing owes (booksOf exec) exec := ⟨assured.1.toOrderly, rfl⟩
  exact (filed.ask proper stands owed unpaid unknown).assured assured.1.balanced assured.2

/-- The transaction a rollback leaves. -/
def rolledBackTo (done : Bool) : Fate := if done then .rolledBack else .lost

private theorem rollback_assures :
    Ensures (Assured limit components inherited .opened owes) (rollback env)
      (fun done => Assured limit components inherited (.closed (rolledBackTo done)) owes) := by
  intro exec assured
  refine assured.ask assured.1.stands ?_ rfl rfl fun _ => rfl
  change standingStep .opened ⟨.rollback, env exec.trace .rollback⟩ =
    .closed (rolledBackTo (env exec.trace .rollback))
  cases env exec.trace .rollback <;> rfl

/-- A committed attempt whose counts the totals do not hold yet. -/
structure Booked (limit : Nat) (components : Components) (inherited : SkipCounts)
    (counts : ChunkCounts) (owes : Bool) (exec : Exec I O) : Prop
    extends Orderly components (.closed .committed) owes exec where
  calm : Clear components exec
  spent : exec.state.skipCounts.total ≤ limit
  skips : exec.state.skipCounts = sumSkips inherited (receipts exec.trace)
  earlier : ∃ earlier skips, receipts exec.trace = earlier ++ [⟨counts, skips⟩] ∧
    (Representable earlier → exec.state.committedCounts = sumCounts earlier ∧
      exec.state.committedChunks = earlier.length)

theorem Booked.aside {before after : Exec I O} {counts : ChunkCounts}
    (booked : Booked limit components inherited counts owes before) (aside : Aside before after) :
    Booked limit components inherited counts owes after := by
  have sameCounts : after.state.committedCounts = before.state.committedCounts :=
    congrArg Tally.counts aside.tally
  have sameChunks : after.state.committedChunks = before.state.committedChunks :=
    congrArg Tally.chunks aside.tally
  have sameSkips : after.state.skipCounts = before.state.skipCounts :=
    congrArg Tally.skips aside.tally
  refine ⟨booked.toOrderly.aside booked.calm aside, booked.calm.aside aside, ?_, ?_, ?_⟩
  · rw [sameSkips]
    exact booked.spent
  · rw [sameSkips, aside.receipts]
    exact booked.skips
  · rw [sameCounts, sameChunks, aside.receipts]
    exact booked.earlier

private theorem booked_keeps {program : ChunkM I O α} {counts : ChunkCounts}
    (aside : Along Aside program) :
    Ensures (Booked limit components inherited counts owes) program
      (fun _ => Booked limit components inherited counts owes) :=
  aside.ensures Booked.aside

/-- What an attempt leaves with its result. -/
def AttemptResult.Stands (limit : Nat) (components : Components) (inherited : SkipCounts)
    (owes : Bool) (result : AttemptResult) (exec : Exec I O) : Prop :=
  match result with
  | .committed counts _ => Booked limit components inherited counts owes exec
  | .replay | .rolledBack _ =>
    Assured limit components inherited (.closed .rolledBack) owes exec
  | .rollbackFailed _ => Assured limit components inherited (.closed .lost) owes exec
  | .unknown => Steady limit components inherited .opened owes exec ∨
      Steady limit components inherited (.closed .unknown) owes exec

private theorem rollBackTo_stands (outcome : ChunkExecutionOutcome) :
    Ensures (Assured limit components inherited .opened owes) (rollBackTo env outcome)
      (AttemptResult.Stands limit components inherited owes) := by
  refine Ensures.bind (rollback_assures env) fun done => ?_
  cases done with
  | true => exact Ensures.pure fun _ assured => assured
  | false => exact Ensures.pure fun _ assured => assured

theorem sumSkips_snoc (receipts : List Receipt) (receipt : Receipt) :
    sumSkips inherited (receipts ++ [receipt]) = (sumSkips inherited receipts).plus receipt.skips := by
  simp [sumSkips]

private theorem sumCounts_snoc (receipts : List Receipt) (receipt : Receipt) :
    sumCounts (receipts ++ [receipt]) = (sumCounts receipts).plus receipt.counts := by
  simp [sumCounts]

/-- A commit was just answered with a receipt. -/
structure Taken (limit : Nat) (components : Components) (inherited : SkipCounts)
    (counts : ChunkCounts) (accepted : SkipCounts) (owes : Bool) (exec : Exec I O) : Prop
    extends Orderly components (.closed .committed) owes exec where
  calm : Clear components exec
  budget : (exec.state.skipCounts.plus accepted).total ≤ limit
  earlier : ∃ earlier, receipts exec.trace = earlier ++ [⟨counts, accepted⟩] ∧
    Tallied inherited earlier exec.state.tally

private theorem acceptCommit_stands (lawful : Lawful limit components) (counts : ChunkCounts)
    (accepted : ChunkFaultProgress) (receipt : CommitReceipt) :
    Ensures (Taken limit components inherited counts accepted.skips owes)
      (acceptCommit env components counts accepted receipt)
      (AttemptResult.Stands limit components inherited owes) := by
  have reading : Ensures (Taken limit components inherited counts accepted.skips owes)
      (getState : ChunkM I O _) (fun state exec => state = exec.state ∧
        Taken limit components inherited counts accepted.skips owes exec) :=
    fun _ taken => ⟨rfl, taken⟩
  refine Ensures.bind reading fun state => ?_
  cases added : state.skipCounts.checkedAdd accepted.skips with
  | none =>
    rintro exec ⟨rfl, taken⟩
    have fits : (exec.state.skipCounts.plus accepted.skips).total < u64Limit :=
      lt_of_le_of_lt taken.budget lawful.representable
    rw [SkipCounts.checkedAdd_eq_some.mpr ⟨rfl, fits⟩] at added
    cases added
  | some nextSkips =>
    have booking : Ensures (fun exec : Exec I O => state = exec.state ∧
          Taken limit components inherited counts accepted.skips owes exec)
        (modifyState fun state =>
          { state with
            skipCounts := nextSkips,
            noRollbackCount := saturatingAdd state.noRollbackCount accepted.noRollbacks })
        (fun _ => Booked limit components inherited counts owes) := by
      rintro exec ⟨rfl, taken⟩
      obtain ⟨sum, _⟩ := SkipCounts.checkedAdd_eq_some.mp added
      obtain ⟨earlier, paid, tallied⟩ := taken.earlier
      refine ⟨⟨taken.proper, taken.stands, taken.owed, taken.valid⟩, taken.calm, ?_, ?_,
        earlier, accepted.skips, paid, tallied.counts⟩
      · change nextSkips.total ≤ limit
        rw [← sum]
        exact taken.budget
      · change nextSkips = sumSkips inherited (receipts exec.trace)
        have held : exec.state.skipCounts = sumSkips inherited earlier := tallied.skips
        rw [paid, sumSkips_snoc, ← sum, held]
    refine Ensures.bind booking fun _ => ?_
    split
    · exact Ensures.pure fun _ booked => booked
    · refine Ensures.bind (booked_keeps (aside_ask env rfl)) fun _ => ?_
      exact Ensures.pure fun _ booked => booked

/-- What the answer to a commit leaves. -/
def Answered (limit : Nat) (components : Components) (inherited : SkipCounts)
    (counts : ChunkCounts) (accepted : SkipCounts) (owes : Bool)
    (answer : Except TransactionError CommitReceipt) (exec : Exec I O) : Prop :=
  match answer with
  | .ok _ => Taken limit components inherited counts accepted owes exec
  | .error .commitOutcomeUnknown =>
    Assured limit components inherited (.closed .unknown) owes exec
  | .error _ => Assured limit components inherited .opened owes exec

private theorem ask_commit {counts : ChunkCounts} (valid : counts.Valid)
    {accepted : ChunkFaultProgress}
    {buffer : ChunkBuffer I O} (progress : accepted.skips = pendingSkips buffer.skips)
    (begun : owes = components.hasCompletionPolicy)
    (componentState : List ComponentStateEnvelope) :
    Ensures (fun exec => buffer.skips = exec.buffer.skips ∧
        Assured limit components inherited .opened owes exec)
      (ask env (.commit counts accepted componentState buffer.slots))
      (Answered limit components inherited counts accepted.skips owes) := by
  rintro exec ⟨same, assured⟩
  have proper : ∀ answer, ProperAt components exec.trace
      ⟨.commit counts accepted componentState buffer.slots, answer⟩ :=
    fun _ => ⟨assured.1.stands, assured.1.owed.trans begun⟩
  change Answered limit components inherited counts accepted.skips owes
    (env exec.trace (.commit counts accepted componentState buffer.slots))
    { exec with trace := exec.trace ++ [⟨.commit counts accepted componentState buffer.slots,
      env exec.trace (.commit counts accepted componentState buffer.slots)⟩] }
  generalize env exec.trace (.commit counts accepted componentState buffer.slots) = answer
  cases answer with
  | error error =>
    cases error with
    | commitOutcomeUnknown => exact assured.ask (proper _) rfl rfl rfl fun _ => rfl
    | notCommitted => exact assured.ask (proper _) rfl rfl rfl fun _ => rfl
    | componentStateUnsupported => exact assured.ask (proper _) rfl rfl rfl fun _ => rfl
  | ok receipt =>
    obtain ⟨steady, calm⟩ := assured
    have paid : receipts (exec.trace ++ [⟨.commit counts accepted componentState buffer.slots,
        .ok receipt⟩]) = receipts exec.trace ++ [⟨counts, accepted.skips⟩] :=
      receipts_snoc _ _
    refine ⟨⟨steady.proper.snoc (proper _), ?_, ?_, ?_⟩, ?_, ?_, _, paid, steady.tallied⟩
    · exact standingOf_snoc _ _
    · exact (owesEnd_snoc _ _).trans steady.owed
    · rw [paid]
      intro receipt member
      rcases List.mem_append.mp member with old | new
      · exact steady.valid receipt old
      · rw [List.mem_singleton.mp new]
        exact valid
    · intro installed
      exact (unknownFault_snoc _ _).trans (calm installed)
    · change (exec.state.skipCounts.plus accepted.skips).total ≤ limit
      rw [progress, same]
      exact steady.budget

private theorem commitAttempt_stands (lawful : Lawful limit components)
    (begun : owes = components.hasCompletionPolicy) (outputs : AttemptOutputs O)
    (componentState : List ComponentStateEnvelope) :
    Ensures (Assured limit components inherited .opened owes)
      (commitAttempt env components outputs componentState)
      (AttemptResult.Stands limit components inherited owes) := by
  refine Ensures.bind getBuffer_ensures fun buffer => ?_
  have calling : Ensures (fun exec : Exec I O => buffer = exec.buffer ∧
        Assured limit components inherited .opened owes exec)
      (skipCallbacks env buffer buffer.skips) (fun _ exec => buffer.skips = exec.buffer.skips ∧
        Assured limit components inherited .opened owes exec) := by
    rintro exec ⟨same, assured⟩
    have aside := mild_aside.skipCallbacks env buffer buffer.skips exec
    refine ⟨?_, assured.aside aside⟩
    rw [aside.skips, same]
  have abandoning : ∀ outcome, Ensures (fun exec : Exec I O => buffer.skips = exec.buffer.skips ∧
        Assured limit components inherited .opened owes exec) (rollBackTo env outcome)
      (AttemptResult.Stands limit components inherited owes) :=
    fun outcome => (rollBackTo_stands env outcome).weaken (fun _ holds => holds.2)
      fun _ _ holds => holds
  refine Ensures.bind calling fun failed => ?_
  split
  · exact abandoning _
  · split
    · exact abandoning _
    · rename_i counts made
      split
      · exact abandoning _
      · rename_i accepted progress
        refine Ensures.bind (ask_commit env (ChunkCounts.valid_of_new made)
          (of_acceptedFaultProgress progress) begun componentState) fun answer => ?_
        cases answer with
        | ok receipt => exact acceptCommit_stands env lawful counts accepted receipt
        | error error =>
          cases error with
          | commitOutcomeUnknown => exact Ensures.pure fun _ assured => .inr assured.1
          | notCommitted => exact rollBackTo_stands env _
          | componentStateUnsupported => exact rollBackTo_stands env _

private theorem backOff_stands (sequence : Nat) (request : RetryRequest) :
    Ensures (Assured limit components inherited (.closed .rolledBack) owes)
      (backOff env components sequence request)
      (AttemptResult.Stands limit components inherited owes) := by
  refine Ensures.bind (assured_keeps (mild_aside.emit env rfl)) fun _ => ?_
  refine Ensures.bind (assured_keeps (aside_ask env rfl)) fun slept => ?_
  split
  · refine Ensures.bind (assured_keeps (mild_aside.emit env rfl)) fun _ => ?_
    exact Ensures.pure fun _ assured => assured
  · refine Ensures.bind (assured_keeps (mild_aside.attemptStop env components)) fun stop => ?_
    split
    · exact Ensures.pure fun _ assured => assured
    · exact Ensures.pure fun _ assured => assured

private theorem enterRetry_stands (sequence : Nat) (request : RetryRequest) :
    Ensures (Assured limit components inherited (.closed .rolledBack) owes)
      (enterRetry env components sequence request)
      (AttemptResult.Stands limit components inherited owes) := by
  refine Ensures.bind (assured_keeps (mild_aside.modifyState fun _ => rfl)) fun _ => ?_
  refine Ensures.bind (assured_keeps (mild_aside.emit env rfl)) fun _ => ?_
  refine Ensures.bind (assured_keeps (mild_aside.emit env rfl)) fun _ => ?_
  refine Ensures.bind (assured_keeps (mild_aside.beforePass env _)) fun before => ?_
  split
  · exact Ensures.pure fun _ assured => assured
  · refine Ensures.bind (assured_keeps (aside_modifyBuffer fun _ => rfl)) fun _ => ?_
    refine Ensures.bind (assured_keeps (mild_aside.attemptStop env components)) fun stop => ?_
    split
    · exact Ensures.pure fun _ assured => assured
    · exact backOff_stands env sequence request

private theorem scheduleRetry_stands (installed : components.fault.isSome = true) (sequence : Nat)
    (request : RetryRequest) :
    Ensures (Assured limit components inherited .opened owes)
      (scheduleRetry env components sequence request)
      (AttemptResult.Stands limit components inherited owes) := by
  unfold scheduleRetry
  split
  · rename_i missing
    rw [missing] at installed
    cases installed
  · refine Ensures.bind (rollback_assures env) fun done => ?_
    cases done with
    | false => exact Ensures.pure fun _ assured => assured
    | true =>
      refine Ensures.bind (assured_keeps (mild_aside.attemptStop env components)) fun stop => ?_
      split
      · exact Ensures.pure fun _ assured => assured
      · refine Ensures.bind (assured_keeps (aside_ask env rfl)) fun reserved => ?_
        split
        · exact Ensures.pure fun _ assured => assured
        · exact Ensures.pure fun _ assured => assured
        · exact enterRetry_stands env sequence request

private theorem concludeAttempt_stands (lawful : Lawful limit components) (sequence : Nat)
    (verdict : Verdict) (begun : verdict = .commit → owes = components.hasCompletionPolicy)
    (outputs : AttemptOutputs O)
    (componentState : List ComponentStateEnvelope) :
    Ensures (verdict.Conducts limit components inherited .opened owes)
      (concludeAttempt env components sequence verdict outputs componentState)
      (AttemptResult.Stands limit components inherited owes) := by
  cases verdict with
  | commit =>
    exact (commitAttempt_stands env lawful (begun rfl) outputs componentState).weaken
      (fun _ conducts => conducts.assured (by simp)) fun _ _ stands => stands
  | retry request =>
    intro exec conducts
    exact scheduleRetry_stands env (conducts.2.2 request rfl) sequence request exec
      (conducts.assured (by simp))
  | replay =>
    refine Ensures.bind ((rollback_assures env).weaken
      (fun _ conducts => conducts.assured (by simp)) fun _ _ holds => holds) fun done => ?_
    cases done with
    | true => exact Ensures.pure fun _ assured => assured
    | false => exact Ensures.pure fun _ assured => assured
  | terminal outcome =>
    cases outcome with
    | unknown => exact Ensures.pure fun _ conducts => .inl conducts.1
    | completed =>
      exact (rollBackTo_stands env _).weaken (fun _ conducts => conducts.assured (by simp))
        fun _ _ stands => stands
    | stopped =>
      exact (rollBackTo_stands env _).weaken (fun _ conducts => conducts.assured (by simp))
        fun _ _ stands => stands
    | failed failure =>
      exact (rollBackTo_stands env _).weaken (fun _ conducts => conducts.assured (by simp))
        fun _ _ stands => stands

/-- An open transaction for which no policy was begun yet. -/
def Opening (limit : Nat) (components : Components) (inherited : SkipCounts) (exec : Exec I O) :
    Prop :=
  Assured limit components inherited .opened false exec ∧ policyUnbegun exec.trace = true

/-- A policy that began is owed its end. -/
private theorem beginPolicy_assures :
    Ensures (Opening limit components inherited) (beginPolicy env components)
      (fun began exec => Assured limit components inherited .opened began exec ∧
        (began = true → components.hasCompletionPolicy = true)) := by
  unfold beginPolicy
  split
  · rename_i installed
    rintro exec ⟨assured, unbegun⟩
    have proper : ∀ answer, ProperAt components exec.trace ⟨.policyBegin, answer⟩ :=
      fun _ => ⟨assured.1.stands, assured.1.owed, unbegun, installed⟩
    refine ⟨?_, fun _ => installed⟩
    change Assured limit components inherited .opened
      (Option.isSome (env exec.trace .policyBegin : Option Unit))
      { exec with trace := exec.trace ++ [⟨.policyBegin, env exec.trace .policyBegin⟩] }
    generalize env exec.trace .policyBegin = answer
    cases answer with
    | none => exact assured.ask (proper _) rfl rfl rfl fun _ => rfl
    | some value => exact assured.ask (proper _) rfl rfl rfl fun _ => rfl
  · exact Ensures.pure fun _ opening => ⟨opening.1, fun began => by cases began⟩

/-- An attempt whose policy did not begin does not get to its commit. -/
private theorem attemptBody_begun (began : Bool)
    (installed : began = true → components.hasCompletionPolicy = true) (sequence fuel : Nat)
    (exec : Exec I O) (outputs : AttemptOutputs O) (componentState : List ComponentStateEnvelope)
    (commits : (attemptBody env components began sequence fuel exec).1 =
      some (.commit, outputs, componentState)) : began = components.hasCompletionPolicy := by
  unfold attemptBody at commits
  split at commits
  · cases commits
  · rename_i begun
    cases began with
    | true => exact (installed rfl).symm
    | false =>
      cases known : components.hasCompletionPolicy with
      | true => exact absurd ⟨known, rfl⟩ begun
      | false => rfl

/-- What an attempt leaves: its transaction resolved as its result says. -/
def Attempted (limit : Nat) (components : Components) (inherited : SkipCounts)
    (result : Option AttemptResult × Bool) (exec : Exec I O) : Prop :=
  match result.1 with
  | none => Steady limit components inherited .opened result.2 exec
  | some concluded => concluded.Stands limit components inherited result.2 exec

/-- One attempt owes the policy that began its end. -/
private theorem runAttempt_stands (lawful : Lawful limit components) (sequence fuel : Nat) :
    Ensures (Opening limit components inherited) (runAttempt env components sequence fuel)
      (Attempted limit components inherited) := by
  refine Ensures.bind (beginPolicy_assures env) fun began => ?_
  have body : Ensures (fun exec => Assured limit components inherited .opened began exec ∧
        (began = true → components.hasCompletionPolicy = true))
      (attemptBody env components began sequence fuel)
      (fun result exec => BodyConducts limit components inherited .opened began result exec ∧
        ∀ outputs componentState, result = some (.commit, outputs, componentState) →
          began = components.hasCompletionPolicy) :=
    fun exec holds => ⟨attemptBody_conducts env lawful began sequence fuel exec holds.1,
      attemptBody_begun env began holds.2 sequence fuel exec⟩
  refine Ensures.bind body fun result => ?_
  cases result with
  | none => exact Ensures.pure fun _ holds => holds.1
  | some result =>
    obtain ⟨verdict, outputs, componentState⟩ := result
    rintro exec ⟨conducts, begun⟩
    have concluding : Ensures (verdict.Conducts limit components inherited .opened began)
        (do
          let result ← concludeAttempt env components sequence verdict outputs componentState
          pure (some result, began)) (Attempted limit components inherited) :=
      Ensures.bind (concludeAttempt_stands env lawful sequence verdict
        (fun commits => begun outputs componentState (commits ▸ rfl)) outputs componentState)
        fun _ => Ensures.pure fun _ stands => stands
    exact concluding exec conducts

end Attempt

section Loop

variable (env : Environment I O) {limit : Nat} {components : Components} {inherited : SkipCounts}
  {standing : Standing} {owes : Bool}

/-- What holds however far a run got. -/
structure Underway (limit : Nat) (components : Components) (inherited : SkipCounts)
    (exec : Exec I O) : Prop where
  proper : Throughout (ProperAt components) exec.trace
  skips : exec.state.skipCounts = sumSkips inherited (receipts exec.trace)
  spent : exec.state.skipCounts.total ≤ limit

/-- A run that reported: no policy is owed an end, a transaction left unresolved is reported
as unknown, and the report is what the receipts add up to. -/
structure Ended (limit : Nat) (components : Components) (inherited : SkipCounts)
    (report : ChunkExecutionReport) (exec : Exec I O) : Prop
    extends Underway limit components inherited exec where
  paid : owesEnd exec.trace = false
  left : standingOf exec.trace ∈ [.opened, .closed .unknown] → report.outcome = .unknown
  doomed : Doomed components exec.trace → report.outcome = .unknown
  tallied : Tallied inherited (receipts exec.trace) report.tally

/-- Between two attempts. -/
def Going (limit : Nat) (components : Components) (inherited : SkipCounts) (exec : Exec I O) :
    Prop :=
  ∃ standing ∈ [.idle, .closed .committed, .closed .rolledBack],
    Assured limit components inherited standing false exec

/-- The loop goes on, or it reported. -/
def GoesOn (limit : Nat) (components : Components) (inherited : SkipCounts)
    (report : Option ChunkExecutionReport) (exec : Exec I O) : Prop :=
  match report with
  | none => Going limit components inherited exec
  | some report => Ended limit components inherited report exec

theorem Steady.spent {exec : Exec I O}
    (steady : Steady limit components inherited standing owes exec) :
    exec.state.skipCounts.total ≤ limit := by
  have budget := steady.budget
  rw [skipsWithPending, SkipCounts.total_plus] at budget
  omega

theorem Steady.underway {exec : Exec I O}
    (steady : Steady limit components inherited standing owes exec) :
    Underway limit components inherited exec :=
  ⟨steady.proper, steady.tallied.skips, steady.spent⟩

/-- An orderly run whose receipts the totals hold; pending skips do not count. -/
structure Counted (limit : Nat) (components : Components) (inherited : SkipCounts)
    (standing : Standing) (owes : Bool) (exec : Exec I O) : Prop
    extends Orderly components standing owes exec where
  spent : exec.state.skipCounts.total ≤ limit
  tallied : Tallied inherited (receipts exec.trace) exec.state.tally

theorem Counted.aside {before after : Exec I O}
    (counted : Counted limit components inherited standing owes before)
    (calm : Clear components before) (aside : Aside before after) :
    Counted limit components inherited standing owes after := by
  have sameSkips : after.state.skipCounts = before.state.skipCounts :=
    congrArg Tally.skips aside.tally
  refine ⟨counted.toOrderly.aside calm aside, ?_, ?_⟩
  · rw [sameSkips]
    exact counted.spent
  · rw [aside.receipts, aside.tally]
    exact counted.tallied

theorem Steady.counted {exec : Exec I O}
    (steady : Steady limit components inherited standing owes exec) :
    Counted limit components inherited standing owes exec :=
  ⟨steady.toOrderly, steady.spent, steady.tallied⟩

/-- A report of balanced books ends the run. -/
theorem Reports.ended {exec : Exec I O} {books : Books O} {report : ChunkExecutionReport}
    (reports : Reports components standing books report exec)
    (spent : books.tally.skips.total ≤ limit) (tallied : Tallied inherited books.receipts books.tally)
    (left : standing ∈ [.opened, .closed .unknown] → report.outcome = .unknown)
    (doomed : components.fault.isSome = true → books.unknown = true → report.outcome = .unknown) :
    Ended limit components inherited report exec := by
  obtain ⟨⟨orderly, rfl⟩, same⟩ := reports
  refine ⟨⟨orderly.proper, tallied.skips, spent⟩, orderly.owed, ?_, ?_, ?_⟩
  · rw [orderly.stands]
    exact left
  · rintro ⟨installed, unknown⟩
    exact doomed installed unknown
  · rw [same]
    exact tallied

private theorem sumCounts_valid {receipts : List Receipt}
    (valid : ∀ receipt ∈ receipts, receipt.counts.Valid) : (sumCounts receipts).Valid := by
  induction receipts using List.reverseRecOn with
  | nil => exact ⟨le_refl _, le_refl _⟩
  | append_singleton receipts receipt ih =>
    rw [sumCounts_snoc]
    exact (ih fun other member => valid other (by simp [member])).plus (valid receipt (by simp))

theorem Representable.of_snoc {receipts : List Receipt} {receipt : Receipt}
    (fits : Representable (receipts ++ [receipt])) :
    Representable receipts ∧ ((sumCounts receipts).plus receipt.counts).read < u64Limit ∧
      receipts.length + 1 < u64Limit := by
  obtain ⟨read, length⟩ := fits
  rw [sumCounts_snoc] at read
  rw [List.length_append, List.length_singleton] at length
  refine ⟨⟨?_, ?_⟩, read, length⟩
  · simp only [ChunkCounts.plus] at read
    omega
  · omega

/-- Totals that overflow were not representable. -/
theorem Booked.overflow {exec : Exec I O} {counts : ChunkCounts}
    (booked : Booked limit components inherited counts owes exec)
    (overflow : exec.state.committedCounts.checkedAdd counts = none ∨
      checkedAdd exec.state.committedChunks 1 = none) :
    Counted limit components inherited (.closed .committed) owes exec := by
  refine ⟨booked.toOrderly, booked.spent, ?_, booked.skips⟩
  intro fits
  exfalso
  obtain ⟨earlier, skips, paid, held⟩ := booked.earlier
  have valid := booked.valid
  rw [paid] at fits valid
  obtain ⟨before, read, length⟩ := fits.of_snoc
  obtain ⟨sameCounts, sameChunks⟩ := held before
  rw [sameCounts, sameChunks] at overflow
  rcases overflow with never | never
  · have sum := ChunkCounts.checkedAdd_of_fits
      (sumCounts_valid fun receipt member => valid receipt (by simp [member]))
      (valid ⟨counts, skips⟩ (by simp)) read
    rw [sum] at never
    cases never
  · rw [checkedAdd, if_pos length] at never
    cases never

/-- The totals take a receipt in. -/
theorem Booked.count {exec : Exec I O} {counts nextCounts : ChunkCounts} {nextChunks : Nat}
    (booked : Booked limit components inherited counts owes exec)
    (added : exec.state.committedCounts.checkedAdd counts = some nextCounts)
    (next : checkedAdd exec.state.committedChunks 1 = some nextChunks) :
    Counted limit components inherited (.closed .committed) owes
      { exec with state :=
        { exec.state with committedCounts := nextCounts, committedChunks := nextChunks } } := by
  refine ⟨⟨booked.proper, booked.stands, booked.owed, booked.valid⟩, booked.spent, ?_,
    booked.skips⟩
  intro fits
  obtain ⟨earlier, skips, paid, held⟩ := booked.earlier
  change Representable (receipts exec.trace) at fits
  change nextCounts = sumCounts (receipts exec.trace) ∧ nextChunks = (receipts exec.trace).length
  rw [paid] at fits ⊢
  obtain ⟨before, read, length⟩ := fits.of_snoc
  obtain ⟨sameCounts, sameChunks⟩ := held before
  constructor
  · rw [ChunkCounts.plus_of_checkedAdd added, sameCounts, sumCounts_snoc]
  · rw [sameChunks, checkedAdd, if_pos length] at next
    rw [List.length_append, List.length_singleton]
    exact (Option.some.inj next).symm

/-- The last report of an attempt whose receipts the totals hold. -/
private theorem finishFailedAttempt_ends (sequence : Nat) {attemptOutcome : ChunkAttemptOutcome}
    (truthful : attemptOutcome = .committed ↔ standing = .closed .committed)
    {outcome : ChunkExecutionOutcome}
    (left : standing ∈ [.opened, .closed .unknown] → outcome = .unknown) :
    Ensures (fun exec => Counted limit components inherited standing owes exec ∧
        (Clear components exec ∨ outcome = .unknown))
      (finishFailedAttempt env components owes sequence attemptOutcome outcome)
      (Ended limit components inherited) := by
  rintro exec ⟨counted, calm⟩
  obtain ⟨reports, unknown⟩ := finishFailedAttempt_files env sequence truthful outcome exec
    ⟨counted.toOrderly, rfl⟩
  refine reports.ended counted.spent counted.tallied (fun unresolved => unknown (left unresolved)) ?_
  intro installed held
  rcases calm with clear | same
  · exact absurd ⟨installed, held⟩ clear.known
  · exact unknown same

/-- Closing a resolved attempt goes on or reports. -/
private theorem closeAttempt_goesOn (sequence : Nat) {attemptOutcome : ChunkAttemptOutcome}
    (truthful : attemptOutcome = .committed ↔ standing = .closed .committed)
    (resolved : standing ∈ [.closed .committed, .closed .rolledBack])
    (replaced : Option ChunkExecutionOutcome) :
    Ensures (Assured limit components inherited standing owes)
      (closeAttempt env components owes sequence attemptOutcome replaced)
      (GoesOn limit components inherited) := by
  rintro exec ⟨steady, calm⟩
  obtain ⟨filed, same⟩ := closeAttempt_files env sequence truthful replaced exec
    ⟨steady.toOrderly, rfl⟩
  cases made : (closeAttempt env components owes sequence attemptOutcome replaced exec).1 with
  | none => exact ⟨standing, by simp_all, filed.assured steady.balanced calm⟩
  | some report =>
    have reports := Reports.ended ⟨filed, same report made⟩ steady.spent steady.tallied
    refine reports (fun unresolved => ?_) fun installed unknown => ?_
    · simp only [List.mem_cons, List.not_mem_nil, or_false] at resolved unresolved
      rcases resolved with rfl | rfl <;> simp at unresolved
    · exact absurd ⟨installed, unknown⟩ (Clear.known calm)

/-- Between two attempts a run may report anything. -/
private theorem reportWith_ends (outcome : ChunkExecutionOutcome)
    (original : Option ChunkExecutionOutcome) :
    Ensures (Going limit components inherited) (reportWith outcome original : ChunkM I O _)
      (Ended limit components inherited) := by
  rintro exec ⟨standing, between, steady, calm⟩
  obtain ⟨reports, _⟩ := reportWith_files outcome original exec ⟨steady.toOrderly, rfl⟩
  refine Reports.ended reports steady.spent steady.tallied (fun unresolved => ?_)
    fun installed unknown => ?_
  · simp only [List.mem_cons, List.not_mem_nil, or_false] at between unresolved
    rcases between with rfl | rfl | rfl <;> simp at unresolved
  · exact absurd ⟨installed, unknown⟩ (Clear.known calm)

theorem Going.aside {before after : Exec I O} (going : Going limit components inherited before)
    (aside : Aside before after) : Going limit components inherited after := by
  obtain ⟨standing, between, assured⟩ := going
  exact ⟨standing, between, assured.aside aside⟩

private theorem going_keeps {program : ChunkM I O α} (aside : Along Aside program) :
    Ensures (Going limit components inherited) program
      (fun _ => Going limit components inherited) :=
  aside.ensures Going.aside

private theorem afterCommitted_goesOn (sequence : Nat) (counts : ChunkCounts)
    (receipt : CommitReceipt) :
    Ensures (Booked limit components inherited counts owes)
      (afterCommitted env components owes sequence counts receipt)
      (GoesOn limit components inherited) := by
  have overflow : Ensures (fun exec : Exec I O =>
        Counted limit components inherited (.closed .committed) owes exec ∧
          (Clear components exec ∨ ChunkExecutionOutcome.failed .count = .unknown))
      (finishFailedAttempt env components owes sequence .committed (.failed .count) >>=
        fun report => pure (some report)) (GoesOn limit components inherited) := by
    refine Ensures.bind (finishFailedAttempt_ends env sequence (by simp) (by simp)) fun report => ?_
    exact Ensures.pure fun _ ended => ended
  have reading : Ensures (Booked limit components inherited counts owes)
      (getState : ChunkM I O _) (fun state exec => state = exec.state ∧
        Booked limit components inherited counts owes exec) :=
    fun _ booked => ⟨rfl, booked⟩
  refine Ensures.bind reading fun state => ?_
  split
  · rename_i nextCounts nextChunks added next
    have counting : Ensures (fun exec : Exec I O => state = exec.state ∧
          Booked limit components inherited counts owes exec)
        (modifyState fun state =>
          { state with committedCounts := nextCounts, committedChunks := nextChunks })
        (fun _ exec => Counted limit components inherited (.closed .committed) owes exec ∧
          Clear components exec) := by
      rintro exec ⟨rfl, booked⟩
      exact ⟨booked.count added next, booked.calm⟩
    have keeping : ∀ {program : ChunkM I O Unit}, Along Aside program →
        Ensures (fun exec => Counted limit components inherited (.closed .committed) owes exec ∧
            Clear components exec) program
          (fun _ exec => Counted limit components inherited (.closed .committed) owes exec ∧
            Clear components exec) :=
      fun aside => aside.ensures fun holds moved =>
        ⟨holds.1.aside holds.2 moved, holds.2.aside moved⟩
    refine Ensures.bind counting fun _ => ?_
    refine Ensures.bind (keeping (aside_ask env rfl)) fun _ => ?_
    refine Ensures.bind getBuffer_ensures fun buffer => ?_
    refine Ensures.bind ((keeping (mild_aside.emitCommittedSkips env sequence buffer.skips)).weaken
      (fun _ holds => holds.2) fun _ _ holds => holds) fun _ => ?_
    split
    · exact overflow.weaken (fun _ holds => ⟨holds.1, .inl holds.2⟩) fun _ _ goes => goes
    · rename_i nextOrdinal _
      have renewing : Ensures (fun exec : Exec I O =>
            Counted limit components inherited (.closed .committed) owes exec ∧
              Clear components exec)
          (modifyBuffer fun _ => ChunkBuffer.new I O nextOrdinal receipt.checkpointDigest)
          (fun _ => Assured limit components inherited (.closed .committed) owes) := by
        rintro exec ⟨counted, calm⟩
        refine ⟨⟨⟨counted.proper, counted.stands, counted.owed, counted.valid⟩, ?_,
          counted.tallied⟩, calm⟩
        exact counted.spent
      refine Ensures.bind renewing fun _ => ?_
      refine Ensures.bind (assured_keeps (mild_aside.completionOutcome env _ _ _))
        fun terminal => ?_
      refine Ensures.bind (closeAttempt_goesOn env sequence (by simp) (by simp) _)
        fun closed => ?_
      split
      · exact Ensures.pure fun _ ended => ended
      · split
        · refine Ensures.bind (reportWith_ends _ _) fun report => ?_
          exact Ensures.pure fun _ ended => ended
        · exact Ensures.pure fun _ going => going
  · rename_i never
    refine overflow.weaken ?_ fun _ _ goes => goes
    rintro exec ⟨rfl, booked⟩
    refine ⟨booked.overflow ?_, .inl booked.calm⟩
    cases sum : exec.state.committedCounts.checkedAdd counts with
    | none => exact .inl rfl
    | some nextCounts =>
      cases next : checkedAdd exec.state.committedChunks 1 with
      | none => exact .inr rfl
      | some nextChunks => exact absurd next (never nextCounts nextChunks sum)

/-- A report of a resolved attempt, taken before its policy is ended. -/
private theorem overflow_ends (outcome : ChunkExecutionOutcome)
    (original : Option ChunkExecutionOutcome) :
    Ensures (Assured limit components inherited (.closed .rolledBack) owes)
      ((reportWith outcome original : ChunkM I O _) >>= fun report =>
        finishPolicy env owes .unknown >>= fun _ => pure (some report))
      (GoesOn limit components inherited) := by
  rintro exec ⟨steady, calm⟩
  obtain ⟨⟨filed, same⟩, _⟩ := reportWith_files outcome original exec ⟨steady.toOrderly, rfl⟩
  have closed := dropPolicy_files env (by simp) exec filed
  exact Reports.ended ⟨closed, same⟩ steady.spent steady.tallied (by simp)
    fun installed unknown => absurd ⟨installed, unknown⟩ (Clear.known calm)

private theorem emitRolledBack_assures (sequence : Nat) (resolved : standing ≠ .closed .committed) :
    Ensures (Assured limit components inherited standing owes) (emit env (.rolledBack sequence))
      (fun _ => Assured limit components inherited standing owes) := by
  intro exec assured
  refine assured.ask ?_ rfl rfl rfl fun _ => rfl
  change standingOf exec.trace ≠ .closed .committed
  rw [assured.1.stands]
  exact resolved

private theorem recordRolledBackAttempt_goesOn (sequence : Nat) :
    Ensures (Assured limit components inherited (.closed .rolledBack) owes)
      (recordRolledBackAttempt env components owes sequence)
      (GoesOn limit components inherited) := by
  refine Ensures.bind (assured_keeps mild_aside.getState) fun state => ?_
  split
  · exact overflow_ends env _ _
  · refine Ensures.bind (assured_keeps (mild_aside.modifyState fun _ => rfl)) fun _ => ?_
    refine Ensures.bind (emitRolledBack_assures env sequence (by simp)) fun _ => ?_
    exact closeAttempt_goesOn env sequence (by simp) (by simp) none

private theorem abandonAttempt_goesOn (sequence : Nat) (outcome : ChunkExecutionOutcome) :
    Ensures (Assured limit components inherited (.closed .rolledBack) owes)
      (abandonAttempt env components owes sequence outcome)
      (GoesOn limit components inherited) := by
  refine Ensures.bind (assured_keeps (mild_aside.modifyState fun _ => rfl)) fun _ => ?_
  refine Ensures.bind (assured_keeps mild_aside.getState) fun state => ?_
  split
  · exact overflow_ends env _ _
  · refine Ensures.bind (assured_keeps (mild_aside.modifyState fun _ => rfl)) fun _ => ?_
    refine Ensures.bind (emitRolledBack_assures env sequence (by simp)) fun _ => ?_
    refine Ensures.bind ((finishFailedAttempt_ends env sequence ?_ (by simp)).weaken
      (fun _ assured => ⟨assured.1.counted, .inl assured.2⟩) fun _ _ ended => ended)
      fun report => ?_
    · split <;> simp
    · exact Ensures.pure fun _ ended => ended

/-- A rollback that failed ends the run. -/
private theorem rollbackFailed_ends (outcome : ChunkExecutionOutcome)
    (original : Option ChunkExecutionOutcome) :
    Ensures (Assured limit components inherited (.closed .lost) false)
      ((reportWith outcome original : ChunkM I O _) >>= fun report => pure (some report))
      (GoesOn limit components inherited) := by
  rintro exec ⟨steady, calm⟩
  obtain ⟨reports, _⟩ := reportWith_files outcome original exec ⟨steady.toOrderly, rfl⟩
  exact Reports.ended reports steady.spent steady.tallied (by simp)
    fun installed unknown => absurd ⟨installed, unknown⟩ (Clear.known calm)

/-- An attempt left open, or whose commit is unknown, ends the run as unknown. -/
private theorem unknown_ends (sequence : Nat) (unresolved : standing ≠ .closed .committed) :
    Ensures (Steady limit components inherited standing owes)
      (emit env (.unknown sequence) >>= fun _ =>
        finishFailedAttempt env components owes sequence .unknown .unknown >>= fun report =>
          pure (some report))
      (GoesOn limit components inherited) := by
  have telling : Ensures (Steady limit components inherited standing owes)
      (emit env (.unknown sequence))
      (fun _ => Steady limit components inherited standing owes) := by
    intro exec steady
    have filed : Filed components standing owes (booksOf exec) exec := ⟨steady.toOrderly, rfl⟩
    have proper : ProperAt components exec.trace
      ⟨.emit (.unknown sequence), env exec.trace (.emit (.unknown sequence))⟩ := trivial
    exact (filed.ask proper rfl rfl rfl fun _ => rfl).steady steady.balanced
  refine Ensures.bind telling fun _ => ?_
  refine Ensures.bind ((finishFailedAttempt_ends env sequence (by simp [unresolved])
    fun _ => rfl).weaken (fun _ steady => ⟨steady.counted, .inr rfl⟩) fun _ _ ended => ended)
    fun report => ?_
  exact Ensures.pure fun _ ended => ended

private theorem afterAttempt_goesOn (sequence : Nat) (result : AttemptResult) :
    Ensures (result.Stands limit components inherited owes)
      (afterAttempt env components owes sequence result)
      (GoesOn limit components inherited) := by
  cases result with
  | committed counts receipt => exact afterCommitted_goesOn env sequence counts receipt
  | replay => exact recordRolledBackAttempt_goesOn env sequence
  | rolledBack outcome =>
    cases outcome with
    | completed =>
      refine Ensures.bind (emitRolledBack_assures env sequence (by simp)) fun _ => ?_
      refine Ensures.bind (closeAttempt_goesOn env sequence (by simp) (by simp) none)
        fun closed => ?_
      split
      · exact Ensures.pure fun _ ended => ended
      · refine Ensures.bind (reportWith_ends _ _) fun report => ?_
        exact Ensures.pure fun _ ended => ended
    | stopped => exact abandonAttempt_goesOn env sequence .stopped
    | failed failure => exact abandonAttempt_goesOn env sequence (.failed failure)
    | unknown => exact abandonAttempt_goesOn env sequence .unknown
  | rollbackFailed original =>
    have finishing : Ensures (Assured limit components inherited (.closed .lost) owes)
        (finishPolicy env owes .unknown)
        (fun _ => Assured limit components inherited (.closed .lost) false) := by
      rintro exec ⟨steady, calm⟩
      have filed := dropPolicy_files env (by simp) exec ⟨steady.toOrderly, rfl⟩
      exact filed.assured steady.balanced calm
    refine Ensures.bind finishing fun panicked => ?_
    split
    · exact rollbackFailed_ends _ _
    · exact rollbackFailed_ends _ _
  | unknown =>
    rintro exec (steady | steady)
    · exact unknown_ends env sequence (by simp) exec steady
    · exact unknown_ends env sequence (by simp) exec steady

/-- What a begin leaves: an open transaction, or none. -/
def Begun (limit : Nat) (components : Components) (inherited : SkipCounts)
    (answer : Except TransactionError Unit) : Exec I O → Prop :=
  match answer with
  | .ok _ => Opening limit components inherited
  | .error _ => Assured limit components inherited .idle false

private theorem begin_begun :
    Ensures (Going limit components inherited) (ask env .begin)
      (Begun limit components inherited) := by
  rintro exec ⟨standing, between, assured⟩
  have proper : ∀ answer : Except TransactionError Unit,
      ProperAt components exec.trace (⟨.begin, answer⟩ : Event I O) := by
    intro answer
    refine ⟨?_, assured.1.owed, ?_⟩
    · rw [assured.1.stands]
      exact between
    · rintro ⟨installed, unknown⟩
      exact Clear.known assured.2 ⟨installed, unknown⟩
  change Begun limit components inherited (env exec.trace .begin)
    { exec with trace := exec.trace ++ [⟨.begin, env exec.trace .begin⟩] }
  generalize env exec.trace .begin = answer
  cases answer with
  | ok value =>
    exact ⟨assured.ask (proper _) rfl rfl rfl fun _ => rfl, policyUnbegun_snoc _ _⟩
  | error error => exact assured.ask (proper _) rfl rfl rfl fun _ => rfl

/-- Calls that leave an attempt where it stands begin no policy. -/
private theorem Opening.aside {before after : Exec I O}
    (opening : Opening limit components inherited before) (aside : Aside before after) :
    Opening limit components inherited after := by
  refine ⟨opening.1.aside aside, ?_⟩
  obtain ⟨events, trace, quiet⟩ := aside.events
  rw [trace, policyUnbegun, List.foldl_append]
  exact (foldl_fixed fun event member => unbegunStep_aside (quiet event member) _).trans opening.2

/-- What the loop leaves behind one round; the inner `none` ran out of fuel. -/
def Rounds (limit : Nat) (components : Components) (inherited : SkipCounts)
    (report : Option (Option ChunkExecutionReport)) (exec : Exec I O) : Prop :=
  match report with
  | none => Going limit components inherited exec
  | some none => Underway limit components inherited exec
  | some (some report) => Ended limit components inherited report exec

private theorem runChunk_rounds (lawful : Lawful limit components) (sequence fuel : Nat) :
    Ensures (Going limit components inherited) (runChunk env components sequence fuel)
      (Rounds limit components inherited) := by
  have failing : ∀ {attemptOutcome} outcome, attemptOutcome ≠ ChunkAttemptOutcome.committed →
      Ensures (Assured limit components inherited .idle false)
        (finishFailedAttempt env components false sequence attemptOutcome outcome >>=
          fun report => pure (some (some report))) (Rounds limit components inherited) := by
    intro attemptOutcome outcome failed
    refine Ensures.bind ((finishFailedAttempt_ends env sequence (by simp [failed])
      (by simp)).weaken (fun _ assured => ⟨assured.1.counted, .inl assured.2⟩)
      fun _ _ ended => ended) fun report => ?_
    exact Ensures.pure fun _ ended => ended
  refine Ensures.bind (begin_begun env) fun answer => ?_
  split
  · exact failing _ (by simp)
  · exact failing _ (by simp)
  · refine Ensures.bind ((mild_aside.emit env rfl).ensures fun opening aside =>
      opening.aside aside) fun _ => ?_
    refine Ensures.bind (runAttempt_stands env lawful sequence fuel) fun attempt => ?_
    obtain ⟨result, began⟩ := attempt
    cases result with
    | none => exact Ensures.pure fun _ steady => steady.underway
    | some result =>
      refine Ensures.bind (afterAttempt_goesOn env sequence result) fun report => ?_
      cases report with
      | none => exact Ensures.pure fun _ going => going
      | some report => exact Ensures.pure fun _ ended => ended

/-- What a run of the loop leaves. -/
def Finished (limit : Nat) (components : Components) (inherited : SkipCounts)
    (report : Option ChunkExecutionReport) (exec : Exec I O) : Prop :=
  match report with
  | none => Underway limit components inherited exec
  | some report => Ended limit components inherited report exec

theorem Going.underway {exec : Exec I O} (going : Going limit components inherited exec) :
    Underway limit components inherited exec := by
  obtain ⟨_, _, assured⟩ := going
  exact assured.1.underway

theorem Finished.underway {exec : Exec I O} {report : Option ChunkExecutionReport}
    (finished : Finished limit components inherited report exec) :
    Underway limit components inherited exec := by
  cases report with
  | none => exact finished
  | some report => exact finished.toUnderway

/-- The loop follows the protocol however many rounds it takes. -/
private theorem runChunkLoop_finishes (lawful : Lawful limit components)
    (fuel sequence rounds : Nat) :
    Ensures (Going limit components inherited) (runChunkLoop env components fuel sequence rounds)
      (Finished limit components inherited) := by
  have reporting : ∀ outcome, Ensures (Going limit components inherited)
      ((reportWith outcome none : ChunkM I O _) >>= fun report => pure (some report))
      (Finished limit components inherited) := by
    intro outcome
    refine Ensures.bind (reportWith_ends _ _) fun report => ?_
    exact Ensures.pure fun _ ended => ended
  induction rounds generalizing sequence with
  | zero => exact Ensures.pure fun _ going => going.underway
  | succ rounds ih =>
    refine Ensures.bind (going_keeps (mild_aside.stopRequested env)) fun stop => ?_
    split
    · exact reporting _
    · split
      · exact reporting _
      · refine Ensures.bind (going_keeps (mild_aside.runBeforeListeners env _ _)) fun failed => ?_
        split
        · refine Ensures.bind (going_keeps (mild_aside.modifyState fun _ => rfl)) fun _ => ?_
          exact reporting _
        · refine Ensures.bind (going_keeps (mild_aside.stopRequested env)) fun stop => ?_
          split
          · exact reporting _
          · refine Ensures.bind (runChunk_rounds env lawful _ fuel) fun report => ?_
            cases report with
            | none => exact ih _
            | some report =>
              cases report with
              | none => exact Ensures.pure fun _ underway => underway
              | some report => exact Ensures.pure fun _ ended => ended

/-- A run from inherited totals. -/
theorem run_finishes (lawful : Lawful limit components) (within : inherited.total ≤ limit)
    (retries : RetryCounts) (noRollbacks fuel rounds : Nat) (checkpointDigest : Digest) :
    Finished limit components inherited
      (run env components fuel rounds checkpointDigest
        (.inheriting inherited retries noRollbacks)).1
      (run env components fuel rounds checkpointDigest
        (.inheriting inherited retries noRollbacks)).2 := by
  refine runChunkLoop_finishes env lawful fuel 0 rounds _ ⟨.idle, by simp, ⟨?_, ?_, ?_⟩, ?_⟩
  · exact ⟨throughout_nil, rfl, rfl, by simp [receipts]⟩
  · exact within
  · exact ⟨fun _ => ⟨rfl, rfl⟩, rfl⟩
  · exact fun _ => rfl

end Loop

end OxideBatch.Chunk
