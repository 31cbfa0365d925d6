import OxideBatch.Core.Component
import OxideBatch.Core.Counts

/-! Fault classification values: phases, retry ordinals, skip and retry counts,
and the framework-owned descriptor a fault policy decides on. -/

namespace OxideBatch.Core

inductive FaultPhase where
  | read
  | process
  | write
  | transaction
  | checkpoint
  | listener
  | backoff
  deriving DecidableEq, Repr

structure FailureSummary where
  category : FailureCategory
  failureId : Nat
  deriving DecidableEq, Repr

inductive ChunkDeliveryMode where
  | atomicSameResource
  | atLeastOnce
  deriving DecidableEq, Repr

structure SkipCounts where
  read : Nat
  process : Nat
  write : Nat
  deriving DecidableEq, Repr

namespace SkipCounts

def zero : SkipCounts := ⟨0, 0, 0⟩

def checkedTotal (counts : SkipCounts) : Option Nat := do
  let first ← checkedAdd counts.read counts.process
  checkedAdd first counts.write

/-- Keeps counts whose total is representable. -/
def checked (counts : SkipCounts) : Option SkipCounts :=
  counts.checkedTotal.map fun _ => counts

def checkedAdd (left right : SkipCounts) : Option SkipCounts := do
  let read ← Core.checkedAdd left.read right.read
  let process ← Core.checkedAdd left.process right.process
  let write ← Core.checkedAdd left.write right.write
  checked ⟨read, process, write⟩

def checkedIncrement (counts : SkipCounts) : FaultPhase → Option SkipCounts
  | .read => do
    let read ← Core.checkedAdd counts.read 1
    checked { counts with read }
  | .process => do
    let process ← Core.checkedAdd counts.process 1
    checked { counts with process }
  | .write => do
    let write ← Core.checkedAdd counts.write 1
    checked { counts with write }
  | _ => none

end SkipCounts

structure RetryCounts where
  read : Nat
  process : Nat
  write : Nat
  deriving DecidableEq, Repr

namespace RetryCounts

def zero : RetryCounts := ⟨0, 0, 0⟩

def increment (counts : RetryCounts) : FaultPhase → RetryCounts
  | .read => { counts with read := saturatingAdd counts.read 1 }
  | .process => { counts with process := saturatingAdd counts.process 1 }
  | .write => { counts with write := saturatingAdd counts.write 1 }
  | _ => counts

end RetryCounts

/-- Classification input; the retry ordinal is zero for a first invocation. -/
structure FaultDescriptor where
  phase : FaultPhase
  summary : FailureSummary
  retryOrdinal : Nat
  committedSkips : SkipCounts
  transactionOpen : Bool
  deliveryMode : ChunkDeliveryMode
  deriving DecidableEq, Repr

def FaultDescriptor.category (fault : FaultDescriptor) : FailureCategory := fault.summary.category

structure FaultEvidence where
  located : Bool
  knownRollback : Bool
  forwardCheckpointProof : Bool
  deriving DecidableEq, Repr

inductive RollbackDisposition where
  | rollback
  | commitSafeSkip
  deriving DecidableEq, Repr

/-- A policy decision; a retry carries its ordinal and its delay. -/
inductive FaultDecision where
  | retry (ordinal : Nat) (delay : Nat)
  | skip (disposition : RollbackDisposition)
  | failAndRollback
  | unknown
  | stop
  deriving DecidableEq, Repr

def FaultDecision.isRetry : FaultDecision → Bool
  | .retry _ _ => true
  | _ => false

/-- Fault-tolerance deltas one chunk commit makes authoritative. -/
structure ChunkFaultProgress where
  skips : SkipCounts
  noRollbacks : Nat
  deriving DecidableEq, Repr

end OxideBatch.Core
