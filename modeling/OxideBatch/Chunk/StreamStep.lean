import OxideBatch.Chunk.Loop

/-! A chunk step around its loop: inherited progress, and the open and close of its streams. -/

namespace OxideBatch.Chunk

open OxideBatch.Core

section Step

/-- A registered stream: its identity, and what its contract makes of an inherited envelope. -/
structure StreamRegistration where
  identity : String
  validateForOpen : ComponentStateEnvelope → Option ComponentStateEnvelope

/-- The committed totals an attempt inherits. -/
structure FaultProgress where
  retries : RetryCounts
  skips : SkipCounts
  rollbacks : Nat
  noRollbacks : Nat

/-- The durable progress a step attempt inherits. -/
structure InheritedStepProgress where
  readOrdinal : Nat
  checkpointDigest : Digest
  fault : FaultProgress

/-- `InheritedStepProgress::NONE`. -/
def InheritedStepProgress.nothing : InheritedStepProgress :=
  ⟨0, List.replicate 32 0, ⟨.zero, .zero, 0, 0⟩⟩

/-- The calls of a step around its loop; a stream is asked for by its registration index. -/
inductive StepQuery where
  | inheritedComponentState
  | bindFaultState
  | inheritedProgress
  | openStream (index : Nat) (inherited : Option ComponentStateEnvelope)
  | closeStream (index : Nat) (outcome : StreamRuntimeOutcome)

/-- The type of answers; of a stream's open and close it matters whether they returned `Ok`. -/
abbrev StepQuery.Answer : StepQuery → Type
  | .inheritedComponentState => Except TransactionError (List ComponentStateEnvelope)
  | .bindFaultState => Except FaultStateError Unit
  | .inheritedProgress => Except TransactionError InheritedStepProgress
  | .openStream _ _ => Bool
  | .closeStream _ _ => Bool

variable {I O : Type}

/-- A call of the step itself, or one of its loop. -/
inductive StepEvent (I O : Type) where
  | around (query : StepQuery) (answer : query.Answer)
  | looped (event : Event I O)

abbrev StepTrace (I O : Type) := List (StepEvent I O)

/-- Everything outside a step; its answers may depend on all that was before. -/
structure StepEnvironment (I O : Type) where
  around : StepTrace I O → (query : StepQuery) → query.Answer
  loop : StepTrace I O → Environment I O

abbrev StepM (I O : Type) := StateM (StepTrace I O)

variable (env : StepEnvironment I O)

def askAround (query : StepQuery) : StepM I O query.Answer := fun trace =>
  let answer := env.around trace query
  (answer, trace ++ [.around query answer])

/-- What is handed to a stream's open, unless its contract refuses it. -/
def StreamRegistration.inherits (registration : StreamRegistration)
    (inheritedState : List ComponentStateEnvelope) : Option (Option ComponentStateEnvelope) :=
  match inheritedState.find? (·.nameSpace = registration.identity) with
  | none => some none
  | some envelope => (registration.validateForOpen envelope).map some

/-- Closes one stream after the other; whether a close failed. -/
def closeEach (outcome : StreamRuntimeOutcome) : List Nat → StepM I O Bool
  | [] => pure false
  | index :: indices => do
    let closed ← askAround env (.closeStream index outcome)
    let failed ← closeEach outcome indices
    pure (!closed || failed)

/-- `close_streams`, in reverse order of opening. -/
def closeStreams (opened : List Nat) (outcome : StreamRuntimeOutcome) : StepM I O Bool :=
  closeEach env outcome opened.reverse

inductive StreamOpenPhaseResult where
  | opened (progress : InheritedStepProgress) (streams : List Nat)
  | failed (outcome : ChunkExecutionOutcome) (closeFailed : Bool)

/-- Opens a stream; a refused envelope and a failed open end the phase alike. -/
def openStream (inheritedState : List ComponentStateEnvelope) (index : Nat)
    (registration : StreamRegistration) : StepM I O Bool :=
  match registration.inherits inheritedState with
  | none => pure false
  | some inherited => askAround env (.openStream index inherited)

/-- The opening loop of `inherited_progress`. -/
def openStreams (progress : InheritedStepProgress) (inheritedState : List ComponentStateEnvelope) :
    Nat → List StreamRegistration → List Nat → StepM I O StreamOpenPhaseResult
  | _, [], opened => pure (.opened progress opened)
  | index, registration :: streams, opened => do
    if ← openStream env inheritedState index registration then
      openStreams progress inheritedState (index + 1) streams (opened ++ [index])
    else do
      let closeFailed ← closeStreams env opened .failed
      pure (.failed (.failed .streamOpen) closeFailed)

/-- The component state of a step with a durable execution and with streams. -/
def loadComponentState (durable : Bool) (streams : List StreamRegistration) :
    StepM I O (Except TransactionError (List ComponentStateEnvelope)) :=
  if durable && !streams.isEmpty then askAround env .inheritedComponentState else pure (.ok [])

/-- The fault state is bound, if there is one. -/
def bindFaultState (hasFault : Bool) : StepM I O Bool := do
  if hasFault then
    let answer ← askAround env .bindFaultState
    pure (answer : Except FaultStateError Unit).isOk
  else pure true

def loadProgress (durable hasFault : Bool) :
    StepM I O (Except ChunkExecutionOutcome InheritedStepProgress) := do
  if durable then
    if ← bindFaultState env hasFault then
      let answer ← askAround env .inheritedProgress
      match (answer : Except TransactionError InheritedStepProgress) with
      | .ok inherited => pure (.ok inherited)
      | .error .commitOutcomeUnknown => pure (.error .unknown)
      | .error _ => pure (.error (.failed .faultState))
    else pure (.error (.failed .faultState))
  else pure (.ok .nothing)

/-- `inherited_progress`. -/
def inheritedProgress (durable hasFault : Bool) (streams : List StreamRegistration) :
    StepM I O StreamOpenPhaseResult := do
  match ← loadComponentState env durable streams with
  | .error _ => pure (.failed (.failed .streamOpen) false)
  | .ok inheritedState =>
    match ← loadProgress env durable hasFault with
    | .error outcome => pure (.failed outcome false)
    | .ok progress => openStreams env progress inheritedState 0 streams []

/-- The report of a step: the loop's, and whether a stream failed to close. -/
structure ChunkStepReport extends ChunkExecutionReport where
  streamCloseFailed : Bool
  deriving DecidableEq, Repr

/-- `ChunkExecutionReport::with_stream_close_failure`. -/
def ChunkExecutionReport.withStreamCloseFailure (report : ChunkExecutionReport) :
    ChunkStepReport :=
  if report.outcome = .completed then
    ⟨{ report with
      originalOutcome := some .completed, outcome := .failed .streamClose }, true⟩
  else ⟨report, true⟩

def ChunkExecutionReport.closing (report : ChunkExecutionReport) (closeFailed : Bool) :
    ChunkStepReport :=
  if closeFailed then report.withStreamCloseFailure else ⟨report, false⟩

/-- The outcome a stream is closed with. -/
def runtimeOutcome : ChunkExecutionOutcome → StreamRuntimeOutcome
  | .completed => .committed
  | .stopped => .stopped
  | .unknown => .unknown
  | .failed _ => .failed

/-- `close_opened_streams`. -/
def closeOpenedStreams (opened : List Nat) (report : ChunkExecutionReport) :
    StepM I O ChunkStepReport :=
  if opened = [] then pure ⟨report, false⟩
  else do
    let closeFailed ← closeStreams env opened (runtimeOutcome report.outcome)
    pure (report.closing closeFailed)

variable (components : Components) (streams : List StreamRegistration)

/-- `run_chunk_loop` from the progress inherited; `none` is exhausted fuel. -/
def runLoop (fuel rounds : Nat) (progress : InheritedStepProgress) :
    StepM I O (Option ChunkExecutionReport) := fun trace =>
  let result := run (env.loop trace)
    { components with
      streams := streams.map (·.identity), baseOrdinal := progress.readOrdinal }
    fuel rounds progress.checkpointDigest
    (.inheriting progress.fault.skips progress.fault.retries progress.fault.noRollbacks)
  (result.1, trace ++ result.2.trace.map .looped)

/-- `execute_chunk_step`; `none` is exhausted fuel. -/
def executeChunkStep (durable : Bool) (fuel rounds : Nat) : StepM I O (Option ChunkStepReport) := do
  match ← inheritedProgress env durable components.fault.isSome streams with
  | .failed outcome closeFailed =>
    pure (some (((ExecutionState.inheriting .zero .zero 0).report outcome none).closing
      closeFailed))
  | .opened progress opened =>
    match ← runLoop env components streams fuel rounds progress with
    | none => pure none
    | some report => do
      let closed ← closeOpenedStreams env opened report
      pure (some closed)

end Step

end OxideBatch.Chunk
