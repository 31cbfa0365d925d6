import OxideBatch.Chunk.State

/-! The phases of one chunk attempt: reading, processing, and writing, each with
its listener passes, retry scopes, and fault classification. -/

namespace OxideBatch.Chunk

open OxideBatch.Core

section Runtime

variable {I O : Type} (env : Environment I O) (components : Components)

def ask (query : Query I O) : ChunkM I O query.Answer := fun exec =>
  let answer := env exec.trace query
  (answer, { exec with trace := exec.trace ++ [⟨query, answer⟩] })

def getBuffer : ChunkM I O (ChunkBuffer I O) := fun exec => (exec.buffer, exec)

def getState : ChunkM I O ExecutionState := fun exec => (exec.state, exec)

def modifyBuffer (change : ChunkBuffer I O → ChunkBuffer I O) : ChunkM I O Unit := fun exec =>
  ((), { exec with buffer := change exec.buffer })

def modifyState (change : ExecutionState → ExecutionState) : ChunkM I O Unit := fun exec =>
  ((), { exec with state := change exec.state })

def emit (event : ChunkRuntimeEvent) : ChunkM I O Unit := do
  let _ ← ask env (.emit event)
  pure ()

def stopRequested : ChunkM I O Bool := ask env .stop

/-- Whether the open transaction rolled back. -/
def rollback : ChunkM I O Bool := ask env .rollback

/-- The stop token an attempt hands to its calls: `FinishChunk` masks it. -/
def attemptStop : ChunkM I O Bool :=
  if components.finishesChunk then pure false else stopRequested env

/-- Records the failures of an item-listener pass; the first one is terminal. -/
def recordPass (failures : List ItemListenerFailure) : ChunkM I O (Option ChunkExecutionOutcome) :=
  match failures with
  | [] => pure none
  | first :: rest => do
    modifyState fun state =>
      { state with itemListenerFailures := state.itemListenerFailures ++ first :: rest }
    pure (some (itemListenerOutcome first.kind))

def retryKey (phase : FaultPhase) (checkpointDigest : Digest) (ordinal : Nat) : Digest :=
  components.retryKey phase checkpointDigest ordinal

/-- Runs the retry-completion callback when `key` had a reserved retry. -/
def completeRetry (key : Digest) (outcome : RetryOutcome) :
    ChunkM I O (Option ChunkExecutionOutcome) := do
  match (← getBuffer).retry with
  | none => pure none
  | some pending =>
    if pending.key = key then
      modifyBuffer fun buffer => { buffer with retry := none }
      let failures ← ask env (.after (.afterRetry pending.fault outcome) pending.entered)
      recordPass failures
    else pure none

/-- Marks one retry key resolved because its unit of work finished. -/
def resolveKey (key : Digest) : ChunkM I O Unit :=
  match components.fault with
  | none => pure ()
  | some _ => do
    let _ ← ask env (.resolve key)
    pure ()

/-- Builds the framework-owned classification input for one fault. -/
def descriptor (phase : FaultPhase) (category : FailureCategory) :
    ChunkM I O (Option FaultDescriptor) := do
  let deliveryMode := (components.fault.map (·.deliveryMode)).getD .atLeastOnce
  match projectedSkips (← getState).skipCounts (← getBuffer).skips with
  | none => pure none
  | some committed =>
    modifyState fun state => { state with nextFailureId := saturatingAdd state.nextFailureId 1 }
    let failureId := (← getState).nextFailureId
    if failureId = 0 then pure none
    else pure (some ⟨phase, ⟨category, failureId⟩, 0, committed, true, deliveryMode⟩)

/-- Replaces the descriptor ordinal with the durably reserved one. -/
def withReservedOrdinal (key : Digest) (fault : FaultDescriptor) : ChunkM I O FaultDescriptor :=
  match components.fault with
  | none => pure fault
  | some _ => do
    let reserved ← ask env (.reservedOrdinal key)
    pure { fault with retryOrdinal := reserved.getD 0 }

/-- Decides one fault and runs the exhaustion callback when the budget is spent. -/
def classify (key : Digest) (fault : FaultDescriptor) (evidence : FaultEvidence)
    (sequence : Nat) : ChunkM I O (Except ChunkExecutionOutcome FaultDecision) := do
  let entered := ((← getBuffer).retry.filter (·.key = key)).map (·.entered)
  match ← (if entered.isSome then completeRetry env key .failed else pure none) with
  | some outcome => pure (.error outcome)
  | none =>
    match components.fault with
    | none => pure (.ok .failAndRollback)
    | some runtime =>
      let decision := runtime.decide fault evidence
      match decision.isRetry, entered with
      | false, some entered =>
        emit env (.fault
          { kind := .retryExhausted, sequence, phase := fault.phase, summary := some fault.summary,
            ordinal := some fault.retryOrdinal })
        match ← recordPass (← ask env (.after (.retryExhausted fault) entered)) with
        | some outcome => pure (.error outcome)
        | none => pure (.ok decision)
      | _, _ => pure (.ok decision)

/-- The common error path of a phase: descriptor, reserved ordinal, error
listeners, classification. -/
def classifyFault (phase : FaultPhase) (category : FailureCategory) (key : Digest)
    (pass : FaultDescriptor → ItemPass I O) (entered : Nat) (evidence : FaultEvidence)
    (sequence : Nat) : ChunkM I O (Except ChunkExecutionOutcome (FaultDescriptor × FaultDecision)) :=
  do
  match ← descriptor components phase category with
  | none => pure (.error (.failed .count))
  | some fault =>
    let fault ← withReservedOrdinal env components key fault
    match ← recordPass (← ask env (.after (pass fault) entered)) with
    | some outcome => pure (.error outcome)
    | none =>
      match ← classify env components key fault evidence sequence with
      | .error outcome => pure (.error outcome)
      | .ok decision => pure (.ok (fault, decision))

/-- The common success path of a unit: after listeners, retry completion, and
key resolution. -/
def settleUnit (pass : ItemPass I O) (entered : Nat) (key : Digest) :
    ChunkM I O (Option ChunkExecutionOutcome) := do
  match ← recordPass (← ask env (.after pass entered)) with
  | some outcome => pure (some outcome)
  | none =>
    match ← completeRetry env key .recovered with
    | some outcome => pure (some outcome)
    | none => do
      resolveKey env components key
      pure none

/-- A before pass: the listeners entered, or the terminal outcome. -/
def beforePass (pass : ItemPass I O) : ChunkM I O (Except ChunkExecutionOutcome Nat) := do
  let before ← ask env (.before pass)
  match before.failure with
  | none => pure (.ok before.entered)
  | some failure => do
    let _ ← recordPass [failure]
    pure (.error (itemListenerOutcome failure.kind))

/-- The category and failure of a reader, processor, or writer fault. -/
def invokedFault (invoked : Invoked α ε) (category : ε → FailureCategory)
    (failed panicked : ChunkFailure) : FailureCategory × ChunkFailure :=
  match invoked with
  | .failed error => (category error, failed)
  | _ => (.userComponent, panicked)

/-- One reader call that failed or panicked; `none` goes on reading. -/
def readFault (sequence : Nat) (key : Digest) (entered : Nat)
    (invoked : Invoked (ReadOutcome I) ReaderError) : ChunkM I O (Option Verdict) := do
  let (category, terminal) := invokedFault invoked (·.category) .reader .readerPanic
  let advanced :=
    match invoked with
    | .failed error => error.hasCheckpointAdvanced
    | _ => false
  match ← classifyFault env components .read category key .readError entered
      ⟨advanced, true, advanced⟩ sequence with
  | .error outcome => pure (some (.terminal outcome))
  | .ok (fault, decision) =>
    match decision with
    | .retry ordinal delay => pure (some (.retry ⟨key, .read, fault, ordinal, delay⟩))
    | .skip disposition => do
      resolveKey env components key
      modifyBuffer fun buffer =>
        { buffer with
          readOrdinal := saturatingAdd buffer.readOrdinal 1,
          skips := buffer.skips ++ [⟨.read, fault, disposition, none, none⟩] }
      pure (if disposition = .rollback then some .replay else none)
    | .unknown => pure (some (.terminal .unknown))
    | .stop => pure (some (.terminal .stopped))
    | .failAndRollback => pure (some (.terminal (.failed terminal)))

/-- One reader call; `none` goes on reading. -/
def readOne (sequence : Nat) : ChunkM I O (Option Verdict) := do
  let buffer ← getBuffer
  let ordinal := buffer.readOrdinal
  let key := retryKey components .read buffer.checkpointDigest ordinal
  match ← beforePass env .beforeRead with
  | .error outcome => pure (some (.terminal outcome))
  | .ok entered =>
    let call := readCount (← get).trace
    match ← ask env (.read call) with
    | .completed (.item item) => do
      match ← settleUnit env components (.afterRead item) entered key with
      | some outcome => pure (some (.terminal outcome))
      | none => do
        modifyBuffer fun buffer =>
          { buffer with
            slots := buffer.slots ++ [⟨item, ordinal, false, call⟩],
            readOrdinal := saturatingAdd buffer.readOrdinal 1 }
        pure none
    | .completed .endOfInput => do
      modifyBuffer fun buffer => { buffer with endOfInput := true }
      pure none
    | .completed .stopped => pure (some (.terminal .stopped))
    | .failed error => readFault env components sequence key entered (.failed error)
    | .panicked => readFault env components sequence key entered .panicked

/-- Whether the chunk is full by the completion policy; `none` is its panic. -/
def policyComplete : ChunkM I O (Option Bool) := do
  let buffer ← getBuffer
  if buffer.slots ≠ [] ∧ components.hasCompletionPolicy = true then
    ask env (.policyIsComplete buffer.slots.length)
  else pure (some false)

/-- Reads until the chunk is full or the input ends; `none` is exhausted fuel. -/
def readPhase (sequence : Nat) : Nat → ChunkM I O (Option Verdict)
  | 0 => pure none
  | fuel + 1 => do
    let buffer ← getBuffer
    if buffer.endOfInput = true ∨ components.size.get ≤ buffer.slots.length then pure (some .commit)
    else
      match ← policyComplete env components with
      | none => pure (some (.terminal (.failed .completionPolicyPanic)))
      | some true => pure (some .commit)
      | some false =>
        if ← attemptStop env components then pure (some (.terminal .stopped))
        else
          match ← readOne env components sequence with
          | some verdict => pure (some verdict)
          | none => readPhase sequence fuel

/-- A processor call that failed or panicked; `none` goes on processing. -/
def processFault (sequence index : Nat) (item : I) (key : Digest) (entered : Nat)
    (invoked : Invoked (ProcessOutcome O) ProcessorError) : ChunkM I O (Option Verdict) := do
  let (category, terminal) := invokedFault invoked (·.category) .processor .processorPanic
  match ← classifyFault env components .process category key (.processError item) entered
      ⟨true, true, true⟩ sequence with
  | .error outcome => pure (some (.terminal outcome))
  | .ok (fault, decision) =>
    match decision with
    | .retry ordinal delay => pure (some (.retry ⟨key, .process, fault, ordinal, delay⟩))
    | .skip disposition => do
      resolveKey env components key
      modifyBuffer fun buffer =>
        { buffer.markSkipped index with
          skips := buffer.skips ++ [⟨.process, fault, disposition, some index, none⟩] }
      pure (if disposition = .rollback then some .replay else none)
    | .unknown => pure (some (.terminal .unknown))
    | .stop => pure (some (.terminal .stopped))
    | .failAndRollback => pure (some (.terminal (.failed terminal)))

/-- One buffered input that is not skipped; `none` goes on processing. -/
def processOne (sequence index : Nat) (slot : ItemSlot I) (outputs : AttemptOutputs O) :
    ChunkM I O (Option Verdict × AttemptOutputs O) := do
  if ← attemptStop env components then pure (some (.terminal .stopped), outputs)
  else
    let key := retryKey components .process (← getBuffer).checkpointDigest slot.ordinal
    match ← beforePass env (.beforeProcess slot.item) with
    | .error outcome => pure (some (.terminal outcome), outputs)
    | .ok entered =>
      match ← ask env (.process slot.call slot.item) with
      | .completed (.item output) => do
        match ← settleUnit env components (.afterProcess slot.item (some output)) entered key with
        | some outcome => pure (some (.terminal outcome), outputs)
        | none =>
          pure (none,
            { outputs with
              values := outputs.values ++ [(slot.call, output)],
              slots := outputs.slots ++ [index] })
      | .completed .filtered => do
        match ← settleUnit env components (.afterProcess slot.item none) entered key with
        | some outcome => pure (some (.terminal outcome), outputs)
        | none => pure (none, { outputs with filtered := saturatingAdd outputs.filtered 1 })
      | .completed .stopped => pure (some (.terminal .stopped), outputs)
      | .failed error => do
        let verdict ← processFault env components sequence index slot.item key entered
          (.failed error)
        pure (verdict, outputs)
      | .panicked => do
        let verdict ← processFault env components sequence index slot.item key entered .panicked
        pure (verdict, outputs)

/-- Processes the buffered inputs at the given indices, in order. -/
def processSlots (sequence : Nat) : List Nat → AttemptOutputs O →
    ChunkM I O (Verdict × AttemptOutputs O)
  | [], outputs => pure (.commit, outputs)
  | index :: indices, outputs => do
    match (← getBuffer).slots[index]? with
    | none => processSlots sequence indices outputs
    | some slot =>
      if slot.skipped then processSlots sequence indices outputs
      else
        match ← processOne env components sequence index slot outputs with
        | (some verdict, outputs) => pure (verdict, outputs)
        | (none, outputs) => processSlots sequence indices outputs

def processPhase (sequence : Nat) : ChunkM I O (Verdict × AttemptOutputs O) := do
  processSlots env components sequence (List.range (← getBuffer).slots.length) (.new O)

/-- Prepares each registered stream's candidate state, in registration order. -/
def updateStreams : Nat → List String → List ComponentStateEnvelope →
    ChunkM I O (Verdict × List ComponentStateEnvelope)
  | _, [], envelopes => pure (.commit, envelopes)
  | index, identity :: streams, envelopes => do
    match ← ask env (.updateStream index) with
    | .ok envelope =>
      if envelope.nameSpace = identity then
        updateStreams (index + 1) streams (envelopes ++ [envelope])
      else pure (.terminal (.failed .streamUpdate), [])
    | .error _ => pure (.terminal (.failed .streamUpdate), [])

/-- A writer call that failed or panicked. -/
def writeFault (sequence : Nat) (outputs : AttemptOutputs O) (key : Digest) (entered : Nat)
    (invoked : Invoked WriteOutcome WriterError) : ChunkM I O Verdict := do
  let (category, terminal) := invokedFault invoked (·.category) .writer .writerPanic
  let located :=
    match invoked with
    | .failed error => error.rolledBackOutput.filter (· < outputs.values.length)
    | _ => none
  match ← classifyFault env components .write category key
      (.writeError (outputs.values.map (·.2))) entered
      ⟨located.isSome, located.isSome, false⟩ sequence with
  | .error outcome => pure (.terminal outcome)
  | .ok (fault, decision) =>
    match decision with
    | .retry ordinal delay => pure (.retry ⟨key, .write, fault, ordinal, delay⟩)
    | .skip disposition =>
      match located with
      | none => pure (.terminal (.failed terminal))
      | some index => do
        resolveKey env components key
        -- `located` is a valid index of both lists
        let slot := outputs.slots.getD index 0
        modifyBuffer fun buffer =>
          { buffer.markSkipped slot with
            skips := buffer.skips ++
              [⟨.write, fault, disposition, some slot, outputs.values[index]?.map (·.2)⟩] }
        pure .replay
    | .unknown => pure (.terminal .unknown)
    | .stop => pure (.terminal .stopped)
    | .failAndRollback => pure (.terminal (.failed terminal))

/-- Writes the provisional batch inside the open transaction. -/
def writePhase (sequence : Nat) (outputs : AttemptOutputs O) :
    ChunkM I O (Verdict × List ComponentStateEnvelope) := do
  if outputs.values = [] then updateStreams env 0 components.streams []
  else if ← attemptStop env components then pure (.terminal .stopped, [])
  else
    let buffer ← getBuffer
    let key := retryKey components .write buffer.checkpointDigest buffer.baseOrdinal
    match ← beforePass env (.beforeWrite (outputs.values.map (·.2))) with
    | .error outcome => pure (.terminal outcome, [])
    | .ok entered =>
      let _ ← ask env .businessTransaction
      match ← ask env (.write outputs.values) with
      | .completed .written => do
        match ← settleUnit env components (.afterWrite (outputs.values.map (·.2))) entered key with
        | some outcome => pure (.terminal outcome, [])
        | none => updateStreams env 0 components.streams []
      | .completed .stopped => pure (.terminal .stopped, [])
      | .failed error => do
        let verdict ← writeFault env components sequence outputs key entered (.failed error)
        pure (verdict, [])
      | .panicked => do
        let verdict ← writeFault env components sequence outputs key entered .panicked
        pure (verdict, [])

end Runtime

end OxideBatch.Chunk
