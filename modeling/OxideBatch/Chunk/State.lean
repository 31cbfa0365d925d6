import OxideBatch.Chunk.Events

/-! State of the chunk runtime: the execution totals, the chunk buffer that
survives rollbacks, and the verdicts of an attempt. -/

namespace OxideBatch.Chunk

open OxideBatch.Core

inductive ChunkFailure where
  | count
  | reader
  | readerPanic
  | processor
  | processorPanic
  | writer
  | writerPanic
  | transactionBegin
  | transactionCommit
  | transactionRollback
  | completion
  | completionPanic
  | listener
  | listenerPanic
  | itemListener
  | itemListenerPanic
  | retryReservation
  | faultState
  | retryStateExhausted
  | unsupportedCapability
  | streamOpen
  | streamUpdate
  | streamClose
  | completionPolicyPanic
  deriving DecidableEq, Repr

inductive ChunkExecutionOutcome where
  | completed
  | stopped
  | failed (failure : ChunkFailure)
  | unknown
  deriving DecidableEq, Repr

structure ExecutionState where
  committedCounts : ChunkCounts
  committedChunks : Nat
  rolledBackChunks : Nat
  listenerFailures : List ChunkListenerFailure
  itemListenerFailures : List ItemListenerFailure
  skipCounts : SkipCounts
  retryCounts : RetryCounts
  rollbackCount : Nat
  noRollbackCount : Nat
  terminalRollback : Bool
  nextFailureId : Nat
  deriving DecidableEq, Repr

/-- Starts an attempt from the totals its durable predecessor committed. -/
def ExecutionState.inheriting (skips : SkipCounts) (retries : RetryCounts) (noRollbacks : Nat) :
    ExecutionState :=
  ⟨.zero, 0, 0, [], [], skips, retries, 0, noRollbacks, false, 0⟩

structure ChunkExecutionReport where
  outcome : ChunkExecutionOutcome
  originalOutcome : Option ChunkExecutionOutcome
  committedCounts : ChunkCounts
  committedChunks : Nat
  rolledBackChunks : Nat
  listenerFailures : List ChunkListenerFailure
  itemListenerFailures : List ItemListenerFailure
  skipCounts : SkipCounts
  retryCounts : RetryCounts
  rollbackCount : Nat
  noRollbackCount : Nat
  terminalRollback : Bool
  deriving DecidableEq, Repr

/-- `ExecutionState::report`; a drained state reports the same values. -/
def ExecutionState.report (state : ExecutionState) (outcome : ChunkExecutionOutcome)
    (originalOutcome : Option ChunkExecutionOutcome) : ChunkExecutionReport :=
  ⟨outcome, originalOutcome, state.committedCounts, state.committedChunks, state.rolledBackChunks,
    state.listenerFailures, state.itemListenerFailures, state.skipCounts, state.retryCounts,
    state.rollbackCount, state.noRollbackCount, state.terminalRollback⟩

/-- One accepted skip awaiting the commit that makes it authoritative. -/
structure PendingSkip (O : Type) where
  phase : FaultPhase
  fault : FaultDescriptor
  disposition : RollbackDisposition
  slot : Option Nat
  output : Option O

structure PendingRetry where
  key : Digest
  fault : FaultDescriptor
  entered : Nat
  deriving DecidableEq, Repr

/-- Chunk-scoped work that survives a rollback and its replay. -/
structure ChunkBuffer (I O : Type) where
  slots : List (ItemSlot I)
  skips : List (PendingSkip O)
  retry : Option PendingRetry
  endOfInput : Bool
  baseOrdinal : Nat
  readOrdinal : Nat
  checkpointDigest : Digest

def ChunkBuffer.new (I O : Type) (baseOrdinal : Nat) (checkpointDigest : Digest) :
    ChunkBuffer I O :=
  ⟨[], [], none, false, baseOrdinal, baseOrdinal, checkpointDigest⟩

def ChunkBuffer.markSkipped (buffer : ChunkBuffer I O) (index : Nat) : ChunkBuffer I O :=
  { buffer with slots := buffer.slots.modify index fun slot => { slot with skipped := true } }

/-- The deltas of the chunk's skips. -/
def acceptedFaultProgress (skips : List (PendingSkip O)) : Option ChunkFaultProgress :=
  skips.foldlM (fun progress skip => do
    let counts ← progress.skips.checkedIncrement skip.phase
    if skip.disposition = .commitSafeSkip then
      let noRollbacks ← checkedAdd progress.noRollbacks 1
      pure ⟨counts, noRollbacks⟩
    else pure ⟨counts, progress.noRollbacks⟩) ⟨.zero, 0⟩

/-- Durable skips plus the skips one chunk has not yet committed. -/
def projectedSkips (committed : SkipCounts) (skips : List (PendingSkip O)) : Option SkipCounts :=
  skips.foldlM (fun counts skip => counts.checkedIncrement skip.phase) committed

structure RetryRequest where
  key : Digest
  phase : FaultPhase
  fault : FaultDescriptor
  ordinal : Nat
  delay : Nat
  deriving DecidableEq, Repr

/-- The verdict of one attempt body, before rollback or commit. -/
inductive Verdict where
  | commit
  | retry (request : RetryRequest)
  | replay
  | terminal (outcome : ChunkExecutionOutcome)
  deriving DecidableEq, Repr

inductive AttemptResult where
  | committed (counts : ChunkCounts) (receipt : CommitReceipt)
  | replay
  | rolledBack (outcome : ChunkExecutionOutcome)
  | rollbackFailed (original : Option ChunkExecutionOutcome)
  | unknown
  deriving DecidableEq, Repr

/-- The parts of `FaultRuntime` that are plain values: the policy's decision
function, its capability requirement, and the delivery mode. -/
structure FaultRuntime where
  decide : FaultDescriptor → FaultEvidence → FaultDecision
  requiresCommitSafeSkip : Bool
  deliveryMode : ChunkDeliveryMode

/-- What one chunk step is configured with; `retryKey` stands for
`RetryKey::derive` under the step's definition digest and name. -/
structure Components where
  size : ChunkSize
  fault : Option FaultRuntime
  streams : List String
  hasCompletionPolicy : Bool
  finishesChunk : Bool
  chunkListeners : Nat
  baseOrdinal : Nat
  retryKey : FaultPhase → Digest → Nat → Digest

/-- Provisional writer input of one attempt; each value carries the ghost number
of the reader call behind it. -/
structure AttemptOutputs (O : Type) where
  values : List (Nat × O)
  slots : List Nat
  filtered : Nat

def AttemptOutputs.new (O : Type) : AttemptOutputs O := ⟨[], [], 0⟩

/-- Everything the loop mutates, and the trace it leaves. -/
structure Exec (I O : Type) where
  trace : Trace I O
  buffer : ChunkBuffer I O
  state : ExecutionState

abbrev ChunkM (I O : Type) := StateM (Exec I O)

def itemListenerOutcome : ListenerFailureKind → ChunkExecutionOutcome
  | .error => .failed .itemListener
  | .panic => .failed .itemListenerPanic

def listenerFailureOutcome : ListenerFailureKind → ChunkExecutionOutcome
  | .error => .failed .listener
  | .panic => .failed .listenerPanic

def Event.isRead (event : Event I O) : Bool :=
  match event.query with
  | .read _ => true
  | _ => false

/-- Reader calls made so far. -/
def readCount (trace : Trace I O) : Nat := trace.countP Event.isRead

end OxideBatch.Chunk
