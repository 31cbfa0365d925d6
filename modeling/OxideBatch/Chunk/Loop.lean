import OxideBatch.Chunk.Phases

/-! Commit, retry scheduling, and `run_chunk_loop`. -/

namespace OxideBatch.Chunk

open OxideBatch.Core

section Runtime

variable {I O : Type} (env : Environment I O) (components : Components)

/-- Rolls back on the way to a terminal outcome. -/
def rollBackTo (outcome : ChunkExecutionOutcome) : ChunkM I O AttemptResult := do
  if ← rollback env then pure (.rolledBack outcome) else pure (.rollbackFailed (some outcome))

/-- The callback of one accepted skip. -/
def skipPass (buffer : ChunkBuffer I O) (skip : PendingSkip O) : ItemPass I O :=
  match skip.phase, skip.slot.bind (buffer.slots[·]?), skip.output with
  | .process, some slot, _ => .skipInProcess slot.item skip.fault
  | .write, _, some output => .skipInWrite output skip.fault
  | _, _, _ => .skipInRead skip.fault

/-- Skip callbacks in acceptance order; the first failure ends the pass. -/
def skipCallbacks (buffer : ChunkBuffer I O) : List (PendingSkip O) →
    ChunkM I O (Option ChunkExecutionOutcome)
  | [] => pure none
  | skip :: skips => do
    match ← recordPass (← ask env (.after (skipPass buffer skip) 0)) with
    | some outcome => pure (some outcome)
    | none => skipCallbacks buffer skips

/-- The bookkeeping behind a receipt; a skip total that overflows is reported as
rolled back although the transaction committed. -/
def acceptCommit (counts : ChunkCounts) (accepted : ChunkFaultProgress)
    (receipt : CommitReceipt) : ChunkM I O AttemptResult := do
  match (← getState).skipCounts.checkedAdd accepted.skips with
  | none => pure (.rolledBack (.failed .count))
  | some nextSkips => do
    modifyState fun state =>
      { state with
        skipCounts := nextSkips,
        noRollbackCount := saturatingAdd state.noRollbackCount accepted.noRollbacks }
    match components.fault with
    | none => pure (.committed counts receipt)
    | some _ => do
      let _ ← ask env .clearResolved
      pure (.committed counts receipt)

/-- Runs skip callbacks and commits the chunk. -/
def commitAttempt (outputs : AttemptOutputs O) (componentState : List ComponentStateEnvelope) :
    ChunkM I O AttemptResult := do
  let buffer ← getBuffer
  match ← skipCallbacks env buffer buffer.skips with
  | some outcome => rollBackTo env outcome
  | none =>
    match ChunkCounts.new buffer.slots.length outputs.values.length outputs.values.length
        outputs.filtered with
    | none => rollBackTo env (.failed .count)
    | some counts =>
      match acceptedFaultProgress buffer.skips with
      | none => rollBackTo env (.failed .count)
      | some accepted =>
        match ← ask env (.commit counts accepted componentState buffer.slots) with
        | .ok receipt => acceptCommit env components counts accepted receipt
        | .error .commitOutcomeUnknown => pure .unknown
        | .error _ => rollBackTo env (.failed .transactionCommit)

/-- Backs off before the replay. -/
def backOff (sequence : Nat) (request : RetryRequest) : ChunkM I O AttemptResult := do
  emit env (.fault
    { kind := .retryBackoffStarted, sequence, phase := request.phase,
      ordinal := some request.ordinal, backoff := some request.delay })
  match ← ask env (.sleep request.delay) with
  | .stopped => do
    emit env (.fault
      { kind := .retryBackoffCancelled, sequence, phase := request.phase,
        ordinal := some request.ordinal, backoff := some request.delay })
    pure (.rolledBack .stopped)
  | .elapsed =>
    if ← attemptStop env components then pure (.rolledBack .stopped) else pure .replay

/-- The retry scope behind a granted reservation. -/
def enterRetry (sequence : Nat) (request : RetryRequest) : ChunkM I O AttemptResult := do
  modifyState fun state =>
    { state with
      rollbackCount := saturatingAdd state.rollbackCount 1,
      retryCounts := state.retryCounts.increment request.phase }
  emit env (.fault
    { kind := .retryReserved, sequence, phase := request.phase,
      summary := some request.fault.summary, ordinal := some request.ordinal })
  emit env (.fault
    { kind := .faultRollbackCommitted, sequence, phase := request.phase,
      summary := some request.fault.summary })
  match ← beforePass env (.beforeRetry request.fault) with
  | .error outcome => pure (.rolledBack outcome)
  | .ok entered => do
    modifyBuffer fun buffer =>
      { buffer with retry := some ⟨request.key, request.fault, entered⟩ }
    if ← attemptStop env components then pure (.rolledBack .stopped)
    else backOff env components sequence request

/-- Rolls back, reserves the retry ordinal durably, then waits for backoff. -/
def scheduleRetry (sequence : Nat) (request : RetryRequest) : ChunkM I O AttemptResult :=
  match components.fault with
  | none => pure (.rolledBack (.failed .retryReservation))
  | some _ => do
    if ← rollback env then
      if ← attemptStop env components then pure (.rolledBack .stopped)
      else
        match ← ask env (.reserve
            ⟨request.key, request.phase, request.fault.category, request.ordinal⟩) with
        | .error (.capacityExhausted _) => pure (.rolledBack (.failed .retryStateExhausted))
        | .error _ => pure (.rolledBack (.failed .retryReservation))
        | .ok () => enterRetry env components sequence request
    else pure (.rollbackFailed none)

/-- The body of an attempt behind the capability check. -/
def attemptPhases (sequence fuel : Nat) :
    ChunkM I O (Option (Verdict × AttemptOutputs O × List ComponentStateEnvelope)) := do
  match ← readPhase env components sequence fuel with
  | none => pure none
  | some .commit =>
    let buffer ← getBuffer
    if buffer.slots = [] ∧ buffer.endOfInput = true ∧ buffer.skips.length = 0 then
      pure (some (.terminal .completed, .new O, []))
    else
      match ← processPhase env components sequence with
      | (.commit, outputs) => do
        let written ← writePhase env components sequence outputs
        pure (some (written.1, outputs, written.2))
      | (verdict, outputs) => pure (some (verdict, outputs, []))
  | some verdict => pure (some (verdict, .new O, []))

/-- Whether the fault policy needs a capability the transaction lacks. -/
def lacksCapability : ChunkM I O Bool :=
  match components.fault with
  | none => pure false
  | some runtime =>
    if runtime.requiresCommitSafeSkip then do
      let business ← ask env .businessTransaction
      pure (!business)
    else pure false

def attemptBody (began : Bool) (sequence fuel : Nat) :
    ChunkM I O (Option (Verdict × AttemptOutputs O × List ComponentStateEnvelope)) := do
  if components.hasCompletionPolicy = true ∧ began = false then
    pure (some (.terminal (.failed .completionPolicyPanic), .new O, []))
  else if ← lacksCapability env components then
    pure (some (.terminal (.failed .unsupportedCapability), .new O, []))
  else attemptPhases env components sequence fuel

/-- Carries out an attempt's verdict. -/
def concludeAttempt (sequence : Nat) (verdict : Verdict) (outputs : AttemptOutputs O)
    (componentState : List ComponentStateEnvelope) : ChunkM I O AttemptResult :=
  match verdict with
  | .commit => commitAttempt env components outputs componentState
  | .retry request => scheduleRetry env components sequence request
  | .replay => do
    if ← rollback env then pure .replay else pure (.rollbackFailed none)
  | .terminal .unknown => pure .unknown
  | .terminal outcome => rollBackTo env outcome

/-- `CompletionPolicyAttempt::begin`: whether an end is owed. -/
def beginPolicy : ChunkM I O Bool := do
  if components.hasCompletionPolicy then
    let began : Option Unit ← ask env .policyBegin
    pure began.isSome
  else pure false

/-- `CompletionPolicyAttempt::finish`: whether the policy panicked. -/
def finishPolicy (began : Bool) (outcome : ChunkAttemptOutcome) : ChunkM I O Bool := do
  if began then
    let ended : Option Unit ← ask env (.policyEnd outcome)
    pure ended.isNone
  else pure false

/-- One attempt: its result and whether a policy end is owed. -/
def runAttempt (sequence fuel : Nat) : ChunkM I O (Option AttemptResult × Bool) := do
  let began ← beginPolicy env components
  match ← attemptBody env components began sequence fuel with
  | none => pure (none, began)
  | some (verdict, outputs, componentState) => do
    let result ← concludeAttempt env components sequence verdict outputs componentState
    pure (some result, began)

def runBeforeListeners (sequence : Nat) : List Nat → ChunkM I O (Option ChunkListenerFailure)
  | [] => pure none
  | index :: indices => do
    let answer ← ask env (.beforeChunk index sequence)
    match (answer : Option ListenerFailureKind) with
    | some kind => pure (some ⟨.beforeChunk, index, kind⟩)
    | none => runBeforeListeners sequence indices

/-- Every after listener runs, in reverse registration order. -/
def runAfterListeners (sequence : Nat) (outcome : ChunkAttemptOutcome) :
    List Nat → ChunkM I O (List ChunkListenerFailure)
  | [] => pure []
  | index :: indices => do
    let answer ← ask env (.afterChunk index sequence outcome)
    let later ← runAfterListeners sequence outcome indices
    match (answer : Option ListenerFailureKind) with
    | some kind => pure (⟨.afterChunk, index, kind⟩ :: later)
    | none => pure later

def afterListeners (sequence : Nat) (outcome : ChunkAttemptOutcome) :
    ChunkM I O (List ChunkListenerFailure) :=
  runAfterListeners env sequence outcome (List.range components.chunkListeners).reverse

def reportWith (outcome : ChunkExecutionOutcome) (original : Option ChunkExecutionOutcome) :
    ChunkM I O ChunkExecutionReport := do
  pure ((← getState).report outcome original)

/-- After listeners and policy end; a failure of either is reported with
`replaced` as the superseded outcome, otherwise `none`. -/
def closeAttempt (began : Bool) (sequence : Nat) (attemptOutcome : ChunkAttemptOutcome)
    (replaced : Option ChunkExecutionOutcome) : ChunkM I O (Option ChunkExecutionReport) := do
  let failures ← afterListeners env components sequence attemptOutcome
  let panicked ← finishPolicy env began attemptOutcome
  match failures with
  | first :: rest => do
    modifyState fun state =>
      { state with listenerFailures := state.listenerFailures ++ first :: rest }
    let report ← reportWith (listenerFailureOutcome first.kind) replaced
    pure (some report)
  | [] =>
    if panicked then
      let report ← reportWith (.failed .completionPolicyPanic) replaced
      pure (some report)
    else pure none

/-- `finish_failed_attempt`: an unknown outcome is never superseded. -/
def finishFailedAttempt (began : Bool) (sequence : Nat) (attemptOutcome : ChunkAttemptOutcome)
    (outcome : ChunkExecutionOutcome) : ChunkM I O ChunkExecutionReport := do
  match ← closeAttempt env components began sequence attemptOutcome (some outcome) with
  | none => reportWith outcome none
  | some report =>
    if outcome = .unknown then reportWith outcome none else pure report

/-- Counts one rolled-back attempt; `some` ends the step. -/
def recordRolledBackAttempt (began : Bool) (sequence : Nat) :
    ChunkM I O (Option ChunkExecutionReport) := do
  match checkedAdd (← getState).rolledBackChunks 1 with
  | none => do
    let report ← reportWith (.failed .count) none
    -- dropping the attempt ends the policy's part in it
    let _ ← finishPolicy env began .unknown
    pure (some report)
  | some count => do
    modifyState fun state => { state with rolledBackChunks := count }
    emit env (.rolledBack sequence)
    closeAttempt env components began sequence .rolledBack none

def emitCommittedSkips (sequence : Nat) : List (PendingSkip O) → ChunkM I O Unit
  | [] => pure ()
  | skip :: skips => do
    emit env (.fault
      { kind := .itemSkipped, sequence, phase := skip.phase, summary := some skip.fault.summary })
    if skip.disposition = .commitSafeSkip then
      emit env (.fault
        { kind := .faultNoRollbackCommitted, sequence, phase := skip.phase,
          summary := some skip.fault.summary })
    emitCommittedSkips sequence skips

/-- The terminal outcome the completion callback of a committed chunk decides. -/
def completionOutcome (receipt : CommitReceipt) (counts : ChunkCounts) (endOfInput : Bool) :
    ChunkM I O (Option ChunkExecutionOutcome) := do
  let answer ← ask env (.afterCommit receipt counts)
  match (answer : Invoked ChunkCompletionOutcome Unit) with
  | .completed .acknowledged =>
    if ← stopRequested env then pure (some .stopped)
    else if endOfInput then pure (some .completed)
    else pure none
  | .completed .stoppedAfterCommit => pure (some .stopped)
  | .failed _ => pure (some (.failed .completion))
  | .panicked => pure (some (.failed .completionPanic))

/-- The loop's part behind a receipt; `none` starts the next chunk. -/
def afterCommitted (began : Bool) (sequence : Nat) (counts : ChunkCounts)
    (receipt : CommitReceipt) : ChunkM I O (Option ChunkExecutionReport) := do
  let overflow := do
    let report ← finishFailedAttempt env components began sequence .committed (.failed .count)
    pure (some report)
  let state ← getState
  match state.committedCounts.checkedAdd counts, checkedAdd state.committedChunks 1 with
  | some nextCounts, some nextChunks => do
    modifyState fun state =>
      { state with committedCounts := nextCounts, committedChunks := nextChunks }
    emit env (.committed sequence)
    let buffer ← getBuffer
    emitCommittedSkips env sequence buffer.skips
    match checkedAdd components.baseOrdinal nextCounts.read with
    | none => overflow
    | some nextOrdinal => do
      modifyBuffer fun _ => ChunkBuffer.new I O nextOrdinal receipt.checkpointDigest
      let terminal ← completionOutcome env receipt counts buffer.endOfInput
      match ← closeAttempt env components began sequence .committed
          (some (terminal.getD .completed)) with
      | some report => pure (some report)
      | none =>
        match terminal with
        | some outcome => do
          let report ← reportWith outcome none
          pure (some report)
        | none => pure none
  | _, _ => overflow

/-- Ends the step behind a terminal rollback. -/
def abandonAttempt (began : Bool) (sequence : Nat) (outcome : ChunkExecutionOutcome) :
    ChunkM I O (Option ChunkExecutionReport) := do
  modifyState fun state =>
    { state with
      rollbackCount := saturatingAdd state.rollbackCount 1, terminalRollback := true }
  match checkedAdd (← getState).rolledBackChunks 1 with
  | none => do
    let report ← reportWith (.failed .count) (some outcome)
    let _ ← finishPolicy env began .unknown
    pure (some report)
  | some count => do
    modifyState fun state => { state with rolledBackChunks := count }
    emit env (.rolledBack sequence)
    let report ← finishFailedAttempt env components began sequence
      (if outcome = .stopped then .stopped else .rolledBack) outcome
    pure (some report)

/-- The loop's part behind an attempt result; `none` goes on. -/
def afterAttempt (began : Bool) (sequence : Nat) (result : AttemptResult) :
    ChunkM I O (Option ChunkExecutionReport) :=
  match result with
  | .committed counts receipt => afterCommitted env components began sequence counts receipt
  | .replay => recordRolledBackAttempt env components began sequence
  | .rolledBack .completed => do
    -- the final chunk read nothing, so its transaction does not count as rolled back
    emit env (.rolledBack sequence)
    match ← closeAttempt env components began sequence .rolledBack none with
    | some report => pure (some report)
    | none => do
      let report ← reportWith .completed none
      pure (some report)
  | .rolledBack outcome => abandonAttempt env components began sequence outcome
  | .rollbackFailed original => do
    if ← finishPolicy env began .unknown then
      let report ← reportWith (.failed .completionPolicyPanic) (some (.failed .transactionRollback))
      pure (some report)
    else
      let report ← reportWith (.failed .transactionRollback) original
      pure (some report)
  | .unknown => do
    emit env (.unknown sequence)
    let report ← finishFailedAttempt env components began sequence .unknown .unknown
    pure (some report)

/-- The loop's part behind the before listeners; `none` goes on, `some none` is
exhausted fuel. -/
def runChunk (sequence fuel : Nat) : ChunkM I O (Option (Option ChunkExecutionReport)) := do
  match ← ask env .begin with
  | .error .commitOutcomeUnknown => do
    let report ← finishFailedAttempt env components false sequence .unknown .unknown
    pure (some (some report))
  | .error _ => do
    let report ← finishFailedAttempt env components false sequence .rolledBack
      (.failed .transactionBegin)
    pure (some (some report))
  | .ok () => do
    emit env (.started sequence)
    match ← runAttempt env components sequence fuel with
    | (none, _) => pure (some none)
    | (some result, began) =>
      match ← afterAttempt env components began sequence result with
      | some report => pure (some (some report))
      | none => pure none

/-- `run_chunk_loop` from chunk `sequence + 1` on; `none` is exhausted fuel. -/
def runChunkLoop (fuel : Nat) : Nat → Nat → ChunkM I O (Option ChunkExecutionReport)
  | _, 0 => pure none
  | sequence, rounds + 1 => do
    if ← stopRequested env then
      let report ← reportWith .stopped none
      pure (some report)
    else
      match checkedAdd sequence 1 with
      | none => do
        let report ← reportWith (.failed .count) none
        pure (some report)
      | some sequence =>
        match ← runBeforeListeners env sequence (List.range components.chunkListeners) with
        | some failure => do
          modifyState fun state =>
            { state with listenerFailures := state.listenerFailures ++ [failure] }
          let report ← reportWith (listenerFailureOutcome failure.kind) none
          pure (some report)
        | none =>
          if ← stopRequested env then
            let report ← reportWith .stopped none
            pure (some report)
          else
            match ← runChunk env components sequence fuel with
            | some report => pure report
            | none => runChunkLoop fuel sequence rounds

end Runtime

/-- A run of the chunk loop over a fresh buffer: at most `rounds` attempts, each
reading at most `fuel` times. -/
def run (env : Environment I O) (components : Components) (fuel rounds : Nat)
    (checkpointDigest : Digest) (state : ExecutionState) :
    Option ChunkExecutionReport × Exec I O :=
  runChunkLoop env components fuel 0 rounds
    ⟨[], ChunkBuffer.new I O components.baseOrdinal checkpointDigest, state⟩

end OxideBatch.Chunk
