import OxideBatch.Core.Definition

/-! The fault policy of a step: which rules its constructors accept, and what it decides
about a fault. -/

namespace OxideBatch.Core

/-- `MAX_RETRY`. -/
def maxRetry : Nat := 65535

/-- `FaultPhase::is_policy_eligible`. -/
def FaultPhase.isPolicyEligible : FaultPhase → Bool
  | .listener => false
  | _ => true

def FaultPhase.isSkippable : FaultPhase → Bool
  | .read | .process | .write => true
  | _ => false

def FaultPhase.allowsCommitSafeSkip : FaultPhase → Bool
  | .read | .process => true
  | _ => false

/-- `FailureCategory::is_policy_eligible`. -/
def FailureCategory.isPolicyEligible : FailureCategory → Bool
  | .transientInfrastructure | .permanentInfrastructure | .userComponent | .optimisticConflict
  | .timeout => true
  | _ => false

namespace FaultAction

def retry : FaultAction := ⟨true, none⟩

/-- `FaultAction::skip`. -/
def skipping (disposition : RollbackDisposition) : FaultAction := ⟨false, some disposition⟩

end FaultAction

inductive FaultPolicyError where
  | notPolicyEligible (phase : FaultPhase) (category : FailureCategory)
  | phaseNotSkippable (phase : FaultPhase)
  | commitSafeSkipPhase (phase : FaultPhase)
  | duplicateRule (phase : FaultPhase) (category : FailureCategory)
  | unreachableRetryRule (phase : FaultPhase) (category : FailureCategory)
  deriving DecidableEq

/-- `FaultRule::new`. -/
def FaultRule.new (phase : FaultPhase) (category : FailureCategory) (action : FaultAction) :
    Except FaultPolicyError FaultRule :=
  if !phase.isPolicyEligible || !category.isPolicyEligible then
    .error (.notPolicyEligible phase category)
  else if action.skip.isSome && !phase.isSkippable then .error (.phaseNotSkippable phase)
  else if action.skip = some .commitSafeSkip && !phase.allowsCommitSafeSkip then
    .error (.commitSafeSkipPhase phase)
  else .ok ⟨category, phase, action⟩

/-- `FaultClassifier::new`. -/
def FaultClassifier.new (revision : ClassifierRevision) (rules : List FaultRule) :
    Except FaultPolicyError FaultClassifier := do
  let accepted ← rules.foldlM (fun (accepted : List FaultRule) rule =>
    if accepted.any fun existing => existing.phase = rule.phase ∧ existing.category = rule.category
    then .error (.duplicateRule rule.phase rule.category)
    else .ok (accepted ++ [rule])) []
  return ⟨revision, accepted⟩

def FaultClassifier.actionFor (classifier : FaultClassifier) (phase : FaultPhase)
    (category : FailureCategory) : Option FaultAction :=
  (classifier.rules.find? fun rule => rule.phase = phase ∧ rule.category = category).map (·.action)

/-- `RetryOrdinal::checked_next`. -/
def checkedNext (ordinal : Nat) : Option Nat :=
  if ordinal < maxRetry then some (ordinal + 1) else none

namespace BackoffPolicy

/-- The factors of `exponential_delay`, one for each retry behind the first. -/
def grow (policy : BackoffPolicy) : Nat → Duration → Duration
  | 0, nanos => nanos
  | retries + 1, nanos =>
    if policy.maximum ≤ nanos * policy.multiplier then policy.maximum
    else policy.grow retries (nanos * policy.multiplier)

def exponentialDelay (policy : BackoffPolicy) (ordinal : Nat) : Duration :=
  if policy.maximum ≤ policy.initial then policy.maximum
  else if 1 < policy.multiplier then policy.grow (ordinal - 1) policy.initial
  else policy.initial

/-- `BackoffPolicy::delay_for`. -/
def delayFor (policy : BackoffPolicy) (ordinal : Nat) : Duration :=
  if ordinal = 0 then 0
  else
    match policy.kind with
    | .none => 0
    | .fixed => policy.initial
    | .exponential => policy.exponentialDelay ordinal

end BackoffPolicy

namespace FaultPolicy

/-- `FaultPolicy::new`. -/
def new (classifier : FaultClassifier) (retryLimit retryStateLimit skipLimit : Nat)
    (backoff : BackoffPolicy) : Except FaultPolicyError FaultPolicy :=
  match classifier.rules.find? (·.action.retryable) with
  | some rule =>
    if retryLimit = 0 then .error (.unreachableRetryRule rule.phase rule.category)
    else .ok ⟨classifier, retryLimit, retryStateLimit, skipLimit, backoff⟩
  | none => .ok ⟨classifier, retryLimit, retryStateLimit, skipLimit, backoff⟩

def requiresCommitSafeSkip (policy : FaultPolicy) : Bool :=
  policy.classifier.rules.any fun rule => rule.action.skip = some .commitSafeSkip

/-- `RetryLimit::permits`. -/
def permits (policy : FaultPolicy) (ordinal : Nat) : Bool :=
  ordinal ≠ 0 && ordinal ≤ policy.retryLimit

/-- What the fault of a phase has to show before it may be skipped. -/
def phaseEvidence (phase : FaultPhase) (evidence : FaultEvidence) : Bool :=
  match phase with
  | .read => evidence.forwardCheckpointProof
  | .process => true
  | .write => evidence.knownRollback
  | _ => false

/-- `FaultPolicy::decide_skip`. -/
def decideSkip (policy : FaultPolicy) (fault : FaultDescriptor) (disposition : RollbackDisposition)
    (evidence : FaultEvidence) : FaultDecision :=
  if !evidence.located then .failAndRollback
  else if !phaseEvidence fault.phase evidence then .failAndRollback
  else if disposition = .commitSafeSkip &&
      !(fault.phase.allowsCommitSafeSkip && evidence.knownRollback &&
        evidence.forwardCheckpointProof) then .failAndRollback
  else
    match (fault.committedSkips.checkedIncrement fault.phase).bind SkipCounts.checkedTotal with
    | some total => if total ≤ policy.skipLimit then .skip disposition else .failAndRollback
    | none => .failAndRollback

/-- The ordinal of the retry a policy grants to a fault: its category has a rule that
retries, and the next ordinal is within the limit. -/
def retries (policy : FaultPolicy) (phase : FaultPhase) (category : FailureCategory)
    (ordinal : Nat) : Option Nat := do
  let action ← policy.classifier.actionFor phase category
  if action.retryable then (checkedNext ordinal).filter policy.permits else none

/-- `FaultPolicy::decide`. -/
def decide (policy : FaultPolicy) (fault : FaultDescriptor) (evidence : FaultEvidence) :
    FaultDecision :=
  if fault.category = .unknownCommit then .unknown
  else if fault.category = .cancelled then .stop
  else if !fault.phase.isPolicyEligible || !fault.category.isPolicyEligible then .failAndRollback
  else
    match policy.classifier.actionFor fault.phase fault.category with
    | none => .failAndRollback
    | some action =>
      match policy.retries fault.phase fault.category fault.retryOrdinal with
      | some next => .retry next (policy.backoff.delayFor next)
      | none =>
        match action.skip with
        | some disposition => policy.decideSkip fault disposition evidence
        | none => .failAndRollback

variable {policy : FaultPolicy} {fault : FaultDescriptor} {evidence : FaultEvidence}

theorem decide_retry {ordinal delay : Nat} (decided : policy.decide fault evidence =
    .retry ordinal delay) :
    policy.retries fault.phase fault.category fault.retryOrdinal = some ordinal := by
  unfold decide at decided
  split at decided
  · cases decided
  · split at decided
    · cases decided
    · split at decided
      · cases decided
      · split at decided
        · cases decided
        · split at decided
          · rename_i next granted
            cases decided
            exact granted
          · split at decided
            · unfold decideSkip at decided
              repeat' split at decided
              all_goals cases decided
            · cases decided

theorem retries_within {phase : FaultPhase} {category : FailureCategory} {held ordinal : Nat}
    (granted : policy.retries phase category held = some ordinal) :
    0 < ordinal ∧ ordinal ≤ policy.retryLimit := by
  simp only [retries, Option.bind_eq_bind, Option.bind_eq_some_iff] at granted
  obtain ⟨action, _, granted⟩ := granted
  split at granted
  · obtain ⟨_, permitted⟩ := Option.filter_eq_some_iff.mp granted
    simp only [permits, Bool.and_eq_true, decide_eq_true_eq] at permitted
    exact ⟨Nat.pos_of_ne_zero permitted.1, permitted.2⟩
  · cases granted

/-- A fault is skipped as a rule offers and `decide_skip` accepts. -/
private theorem decide_skips {disposition : RollbackDisposition}
    (decided : policy.decide fault evidence = .skip disposition) :
    ∃ offered, policy.decideSkip fault offered evidence = .skip disposition := by
  unfold decide at decided
  split at decided
  · cases decided
  · split at decided
    · cases decided
    · split at decided
      · cases decided
      · split at decided
        · cases decided
        · split at decided
          · cases decided
          · split at decided
            · rename_i offered _
              exact ⟨offered, decided⟩
            · cases decided

/-- A read is skipped only with the proof that the reader moved past the record. -/
theorem decide_skip_read {disposition : RollbackDisposition} (read : fault.phase = .read)
    (decided : policy.decide fault evidence = .skip disposition) :
    evidence.forwardCheckpointProof = true := by
  obtain ⟨offered, skipped⟩ := decide_skips decided
  unfold decideSkip at skipped
  split at skipped
  · cases skipped
  · split at skipped
    · cases skipped
    · rename_i proof
      simpa [phaseEvidence, read] using proof

/-- A skip is accepted only while the total with it is within the limit. -/
theorem decide_skip_within {disposition : RollbackDisposition}
    (decided : policy.decide fault evidence = .skip disposition) :
    ∃ total, (fault.committedSkips.checkedIncrement fault.phase).bind SkipCounts.checkedTotal =
      some total ∧ total ≤ policy.skipLimit := by
  obtain ⟨offered, skipped⟩ := decide_skips decided
  unfold decideSkip at skipped
  split at skipped
  · cases skipped
  · split at skipped
    · cases skipped
    · split at skipped
      · cases skipped
      · split at skipped
        · rename_i total counted
          split at skipped
          · rename_i within
            exact ⟨total, counted, within⟩
          · cases skipped
        · cases skipped

end FaultPolicy

end OxideBatch.Core
