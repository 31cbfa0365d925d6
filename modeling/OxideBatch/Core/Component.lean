import Mathlib

/-! Component outcomes and value-redacted component errors shared by the item
readers and the chunk runtime. -/

namespace OxideBatch.Core

/-- Stable framework category of a redacted failure. -/
inductive FailureCategory where
  | invalidDefinition
  | duplicateExecution
  | illegalTransition
  | transientInfrastructure
  | permanentInfrastructure
  | userComponent
  | cancelled
  | serialization
  | invariant
  | optimisticConflict
  | timeout
  | unsupportedCapability
  | unknownCommit
  | shutdownIncomplete
  | staleRecovered
  deriving DecidableEq, Repr

/-- One item-reader call outcome. -/
inductive ReadOutcome (Item : Type u) where
  | item (value : Item)
  | endOfInput
  | stopped
  deriving DecidableEq, Repr

/-- One item-processor call outcome. -/
inductive ProcessOutcome (Output : Type u) where
  | item (value : Output)
  | filtered
  | stopped
  deriving DecidableEq, Repr

/-- One item-writer call outcome. -/
inductive WriteOutcome where
  | written
  | stopped
  deriving DecidableEq, Repr

structure ReaderError where
  category : FailureCategory
  checkpointAdvanced : Bool
  deriving DecidableEq, Repr

namespace ReaderError

def new : ReaderError := ⟨.userComponent, false⟩

def withCategory (category : FailureCategory) : ReaderError := ⟨category, false⟩

def withCheckpointAdvanced (error : ReaderError) (advanced : Bool) : ReaderError :=
  { error with checkpointAdvanced := advanced }

def hasCheckpointAdvanced (error : ReaderError) : Bool := error.checkpointAdvanced

end ReaderError

structure ProcessorError where
  category : FailureCategory
  deriving DecidableEq, Repr

def ProcessorError.new : ProcessorError := ⟨.userComponent⟩

/-- A writer locates at most one known-rolled-back output by its batch index. -/
structure WriterError where
  category : FailureCategory
  rolledBackOutput : Option Nat
  deriving DecidableEq, Repr

def WriterError.new : WriterError := ⟨.userComponent, none⟩

structure StreamOpenError where
  category : FailureCategory
  deriving DecidableEq, Repr

structure StreamCloseError where
  category : FailureCategory
  deriving DecidableEq, Repr

inductive StreamOpenOutcome where
  | restored
  | initial
  deriving DecidableEq, Repr

inductive StreamRuntimeOutcome where
  | committed
  | failed
  | stopped
  | unknown
  | resourceBoundary
  deriving DecidableEq, Repr

end OxideBatch.Core
