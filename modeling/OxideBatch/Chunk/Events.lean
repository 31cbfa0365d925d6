import OxideBatch.Core.Fault

/-! The boundary of the chunk runtime: every call it makes to a component, a
listener, the transaction, the fault store, a stream, or the stop token is one
query, and a run leaves the trace of its queries with their answers. -/

namespace OxideBatch.Chunk

open OxideBatch.Core

abbrev Digest := List UInt8

/-- One component invocation; a panic carries nothing. -/
inductive Invoked (α ε : Type) where
  | completed (value : α)
  | failed (error : ε)
  | panicked
  deriving DecidableEq, Repr

inductive ListenerFailureKind where
  | error
  | panic
  deriving DecidableEq, Repr

inductive ItemListenerPhase where
  | beforeRead
  | afterRead
  | readError
  | beforeProcess
  | afterProcess
  | processError
  | beforeWrite
  | afterWrite
  | writeError
  | beforeRetry
  | afterRetry
  | retryExhausted
  | skip
  deriving DecidableEq, Repr

structure ItemListenerFailure where
  phase : ItemListenerPhase
  registrationIndex : Nat
  kind : ListenerFailureKind
  deriving DecidableEq, Repr

/-- How far a before pass got: the listeners entered and the one that failed. -/
structure BeforeCallbackOutcome where
  entered : Nat
  failure : Option ItemListenerFailure
  deriving DecidableEq, Repr

inductive RetryOutcome where
  | recovered
  | failed
  deriving DecidableEq, Repr

/-- One pass over a family of item listeners. -/
inductive ItemPass (I O : Type) where
  | beforeRead
  | afterRead (item : I)
  | readError (fault : FaultDescriptor)
  | beforeProcess (input : I)
  | afterProcess (input : I) (output : Option O)
  | processError (input : I) (fault : FaultDescriptor)
  | beforeWrite (outputs : List O)
  | afterWrite (outputs : List O)
  | writeError (outputs : List O) (fault : FaultDescriptor)
  | beforeRetry (fault : FaultDescriptor)
  | afterRetry (fault : FaultDescriptor) (outcome : RetryOutcome)
  | retryExhausted (fault : FaultDescriptor)
  | skipInRead (fault : FaultDescriptor)
  | skipInProcess (input : I) (fault : FaultDescriptor)
  | skipInWrite (output : O) (fault : FaultDescriptor)

inductive ChunkAttemptOutcome where
  | committed
  | rolledBack
  | stopped
  | unknown
  deriving DecidableEq, Repr

inductive ChunkListenerPhase where
  | beforeChunk
  | afterChunk
  deriving DecidableEq, Repr

structure ChunkListenerFailure where
  phase : ChunkListenerPhase
  registrationIndex : Nat
  kind : ListenerFailureKind
  deriving DecidableEq, Repr

inductive TransactionError where
  | notCommitted
  | commitOutcomeUnknown
  | componentStateUnsupported
  deriving DecidableEq, Repr

/-- What a commit hands back: the generation digest of its checkpoint. -/
structure CommitReceipt where
  checkpointDigest : Digest
  deriving DecidableEq, Repr

/-- A stream's candidate state, as far as the runtime inspects it. -/
structure ComponentStateEnvelope where
  nameSpace : String
  payload : List UInt8
  deriving DecidableEq, Repr

structure RetryReservation where
  key : Digest
  phase : FaultPhase
  category : FailureCategory
  ordinal : Nat
  deriving DecidableEq, Repr

inductive FaultStateFormatError where
  | unsupportedFormat
  | unsupportedSchemaVersion
  | malformed
  | malformedEntry
  | unknownEnumeration
  | checksumMismatch
  | tooLarge (maxBytes : Nat)
  | tooManyEntries (max : Nat)
  | duplicateKey
  | unsortedEntries
  | ordinalAboveLimit (max : Nat)
  | checkpointMismatch
  deriving DecidableEq, Repr

inductive FaultStateError where
  | capacityExhausted (max : Nat)
  | staleReservation
  | corrupt (error : FaultStateFormatError)
  | unbound
  | unavailable
  deriving DecidableEq, Repr

inductive BackoffOutcome where
  | elapsed
  | stopped
  deriving DecidableEq, Repr

inductive ChunkCompletionOutcome where
  | acknowledged
  | stoppedAfterCommit
  deriving DecidableEq, Repr

/-- Lifecycle kinds the chunk runtime emits for a fault. -/
inductive LifecycleEventKind where
  | retryReserved
  | faultRollbackCommitted
  | retryBackoffStarted
  | retryBackoffCancelled
  | retryExhausted
  | itemSkipped
  | faultNoRollbackCommitted
  deriving DecidableEq, Repr

structure FaultRuntimeEvent where
  kind : LifecycleEventKind
  sequence : Nat
  phase : FaultPhase
  summary : Option FailureSummary := none
  ordinal : Option Nat := none
  backoff : Option Nat := none
  deriving DecidableEq, Repr

inductive ChunkRuntimeEvent where
  | started (sequence : Nat)
  | committed (sequence : Nat)
  | rolledBack (sequence : Nat)
  | unknown (sequence : Nat)
  | fault (event : FaultRuntimeEvent)
  deriving DecidableEq, Repr

/-- One buffered input. `call` is ghost: the number of the reader call that
returned it. -/
structure ItemSlot (I : Type) where
  item : I
  ordinal : Nat
  skipped : Bool
  call : Nat
  deriving DecidableEq, Repr

/-- A call the runtime makes. Reader calls are numbered, outputs carry the
number of the reader call their input came from, and a commit carries the
buffered slots; these numbers and slots are ghost. -/
inductive Query (I O : Type) where
  | read (call : Nat)
  | process (call : Nat) (input : I)
  | write (batch : List (Nat × O))
  | begin
  | commit (counts : ChunkCounts) (progress : ChunkFaultProgress)
      (componentState : List ComponentStateEnvelope) (slots : List (ItemSlot I))
  | stop
  | before (pass : ItemPass I O)
  | after (pass : ItemPass I O) (entered : Nat)
  | beforeChunk (index sequence : Nat)
  | afterChunk (index sequence : Nat) (outcome : ChunkAttemptOutcome)
  | businessTransaction
  | rollback
  | reserve (reservation : RetryReservation)
  | resolve (key : Digest)
  | reservedOrdinal (key : Digest)
  | clearResolved
  | sleep (delay : Nat)
  | policyBegin
  | policyIsComplete (itemsRead : Nat)
  | policyEnd (outcome : ChunkAttemptOutcome)
  | afterCommit (receipt : CommitReceipt) (counts : ChunkCounts)
  | updateStream (index : Nat)
  | emit (event : ChunkRuntimeEvent)

namespace Query

variable {I O : Type}

/-- The type of answers to a query. A panicking policy call answers `none`. -/
def Answer : Query I O → Type
  | .read _ => Invoked (ReadOutcome I) ReaderError
  | .process _ _ => Invoked (ProcessOutcome O) ProcessorError
  | .write _ => Invoked WriteOutcome WriterError
  | .begin => Except TransactionError Unit
  | .commit _ _ _ _ => Except TransactionError CommitReceipt
  | .stop => Bool
  | .before _ => BeforeCallbackOutcome
  | .after _ _ => List ItemListenerFailure
  | .beforeChunk _ _ => Option ListenerFailureKind
  | .afterChunk _ _ _ => Option ListenerFailureKind
  | .businessTransaction => Bool
  | .rollback => Bool
  | .reserve _ => Except FaultStateError Unit
  | .resolve _ => Unit
  | .reservedOrdinal _ => Option Nat
  | .clearResolved => Unit
  | .sleep _ => BackoffOutcome
  | .policyBegin => Option Unit
  | .policyIsComplete _ => Option Bool
  | .policyEnd _ => Option Unit
  | .afterCommit _ _ => Invoked ChunkCompletionOutcome Unit
  | .updateStream _ => Except Unit ComponentStateEnvelope
  | .emit _ => Unit

end Query

structure Event (I O : Type) where
  query : Query I O
  answer : query.Answer

abbrev Trace (I O : Type) := List (Event I O)

/-- Everything outside the runtime: an answer to every query, free to depend on
the whole history. -/
abbrev Environment (I O : Type) := Trace I O → (query : Query I O) → query.Answer

end OxideBatch.Chunk
