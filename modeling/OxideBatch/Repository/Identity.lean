import OxideBatch.Core.Counts
import OxideBatch.Core.Definition
import OxideBatch.Plan.Graph

/-! Identifiers, names, and digests of durable records, and the order of the keys
that index them. -/

namespace OxideBatch.Repository

open OxideBatch.Core OxideBatch.Plan
open Std (ExtTreeMap ExtTreeSet)

inductive IdentifierKind where
  | jobInstance
  | jobExecution
  | stepExecution
  | recoveryDecision
  | operatorRequest
  | retentionAction
  | stepPartition
  | failure
  | flowDecision
  | flowDecisionSequence
  deriving DecidableEq, Repr

inductive DomainError where
  | zeroIdentifier (kind : IdentifierKind)
  | invalidTimestampOrder
  | activeExecutionHasEndTime
  | finishedExecutionMissingEndTime
  | failedExecutionMissingFailure
  deriving DecidableEq

/-- `NonZeroU64` under its kind. -/
structure Id (kind : IdentifierKind) where
  get : Nat
  positive : 0 < get
  within : get < u64Limit

namespace Id

variable {kind : IdentifierKind}

theorem get_injective : Function.Injective (get : Id kind → Nat) := by
  intro left right same
  cases left
  cases right
  cases same
  rfl

instance : DecidableEq (Id kind) := fun _ _ => decidable_of_iff _ get_injective.eq_iff

instance : Ord (Id kind) := ⟨compareOn get⟩

instance : Std.TransOrd (Id kind) := transCmp_compareOn

instance : Std.LawfulEqOrd (Id kind) := lawfulEqCmp_compareOn get_injective

def numbered (number : Nat) : Id kind :=
  ⟨wrap u64Limit number, wrap_pos u64Limit number, wrap_lt_u64 number⟩

instance (number : Nat) : OfNat (Id kind) (number + 1) := ⟨numbered (number + 1)⟩

/-- The identifier with a `u64` value. -/
def new (kind : IdentifierKind) (value : Nat) : Except DomainError (Id kind) :=
  if valid : 0 < value ∧ value < u64Limit then .ok ⟨value, valid.1, valid.2⟩
  else .error (.zeroIdentifier kind)

/-- The identifier behind the greatest one in use; 0 stands for an exhausted `u64`. -/
def following (last : Option (Id kind)) : Except DomainError (Id kind) :=
  new kind (match last with
    | none => 1
    | some id => (Core.checkedAdd id.get 1).getD 0)

end Id

abbrev JobInstanceId := Id .jobInstance

abbrev JobExecutionId := Id .jobExecution

abbrev StepExecutionId := Id .stepExecution

abbrev RecoveryDecisionId := Id .recoveryDecision

abbrev OperatorRequestId := Id .operatorRequest

abbrev RetentionActionId := Id .retentionAction

abbrev StepPartitionId := Id .stepPartition

abbrev FailureId := Id .failure

abbrev FlowDecisionId := Id .flowDecision

abbrev FlowDecisionSequence := Id .flowDecisionSequence

abbrev DefinitionArtifactId := Token 128

abbrev OperationId := Token 64

abbrev ActorRef := Token 128

abbrev ReasonCode := Token 64

/-- The orders of the tables over pairs, by names of their own. -/
instance transOrdInstance : Std.TransOrd (JobInstanceId × NodeId) := inferInstance

instance transOrdExecution : Std.TransOrd (JobExecutionId × NodeId) := inferInstance

instance transOrdRepeat : Std.TransOrd (StepExecutionId × RepeatId) := inferInstance

instance transOrdOperation : Std.TransOrd (String × OperationId) := inferInstance

/-- 16 bytes as one number. -/
abbrev OwnerToken := Fin (2 ^ 128)

/-- Nanoseconds from the epoch. -/
abbrev SystemTime := Int

end OxideBatch.Repository
