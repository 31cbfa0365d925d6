import Mathlib
import OxideBatch.Core.FaultPolicy

/-! The backoff schedule of a fault policy: what its constructors accept, and the delay in
front of each retry as the machine computes it. -/

namespace OxideBatch.Core

/-- `MAX_BACKOFF`: 24 hours. -/
def maxBackoff : Duration := 24 * 3600 * 10 ^ 9

/-- What the constructors of a schedule refuse. -/
inductive BackoffError where
  | delayTooLong (maxSeconds : Nat)
  | zeroMultiplier
  | maximumBelowInitial
  deriving DecidableEq, Repr

def checkDelay (delay : Duration) : Except BackoffError Unit :=
  if maxBackoff < delay then .error (.delayTooLong (maxBackoff / 10 ^ 9)) else .ok ()

/-- `u128::saturating_mul`. -/
def saturatingMul (left right : Nat) : Nat := min (left * right) (2 ^ 128 - 1)

namespace BackoffPolicy

/-- `BackoffPolicy::none`. -/
def immediate : BackoffPolicy := ⟨.none, 0, 1, 0⟩

def fixed (delay : Duration) : Except BackoffError BackoffPolicy := do
  checkDelay delay
  return ⟨.fixed, delay, 1, delay⟩

def exponential (initial : Duration) (multiplier : Nat) (maximum : Duration) :
    Except BackoffError BackoffPolicy := do
  checkDelay initial
  checkDelay maximum
  if multiplier = 0 then throw .zeroMultiplier
  if maximum < initial then throw .maximumBelowInitial
  return ⟨.exponential, initial, multiplier, maximum⟩

/-- The loop of `exponential_delay` on 128-bit words; `none` when it returned the maximum. -/
def rounds (policy : BackoffPolicy) : Nat → Nat → Option Nat
  | 0, nanos => some nanos
  | retries + 1, nanos =>
    let grown := saturatingMul nanos policy.multiplier
    if policy.maximum ≤ grown then none else policy.rounds retries grown

/-- The conversion to 64 bits at the end of `exponential_delay`. -/
def fromNanos (policy : BackoffPolicy) (nanos : Nat) : Duration :=
  if nanos < 2 ^ 64 then nanos else policy.maximum

/-- `exponential_delay` with the words of the machine. -/
def machineExponentialDelay (policy : BackoffPolicy) (ordinal : Nat) : Duration :=
  if policy.maximum ≤ policy.initial then policy.maximum
  else if 1 < policy.multiplier then
    match policy.rounds (ordinal - 1) policy.initial with
    | some nanos => policy.fromNanos nanos
    | none => policy.maximum
  else policy.fromNanos policy.initial

/-- `delay_for` with the words of the machine. -/
def machineDelayFor (policy : BackoffPolicy) (ordinal : Nat) : Duration :=
  if ordinal = 0 then 0
  else
    match policy.kind with
    | .none => 0
    | .fixed => policy.initial
    | .exponential => policy.machineExponentialDelay ordinal

/-- A schedule that one of the constructors returned. -/
inductive Built : BackoffPolicy → Prop where
  | immediate : Built BackoffPolicy.immediate
  | fixed (made : BackoffPolicy.fixed delay = .ok policy) : Built policy
  | exponential (made : BackoffPolicy.exponential first factor ceiling = .ok policy) :
      Built policy

/-- What every constructor leaves of its arguments. -/
structure Bounded (policy : BackoffPolicy) : Prop where
  ordered : policy.initial ≤ policy.maximum
  capped : policy.maximum ≤ maxBackoff
  grows : 0 < policy.multiplier
  constant : policy.kind ≠ .exponential → policy.maximum = policy.initial
  idle : policy.kind = .none → policy.initial = 0

private theorem checkDelay_ok (checked : checkDelay delay = .ok ()) : delay ≤ maxBackoff := by
  unfold checkDelay at checked
  split at checked
  · cases checked
  · rename_i within
    exact Nat.le_of_not_lt within

private theorem exponential_ok (made : exponential first factor ceiling = .ok policy) :
    ceiling ≤ maxBackoff ∧ factor ≠ 0 ∧ first ≤ ceiling ∧
      policy = ⟨.exponential, first, factor, ceiling⟩ := by
  unfold exponential at made
  cases one : checkDelay first with
  | error error =>
    rw [one] at made
    cases made
  | ok _ =>
    cases two : checkDelay ceiling with
    | error error =>
      rw [one, two] at made
      cases made
    | ok _ =>
      rw [one, two] at made
      have capped := checkDelay_ok two
      by_cases zero : factor = 0
      · rw [if_pos zero] at made
        cases made
      · by_cases below : ceiling < first
        · rw [if_neg zero, if_pos below] at made
          cases made
        · rw [if_neg zero, if_neg below] at made
          cases made
          exact ⟨capped, zero, Nat.le_of_not_lt below, rfl⟩

theorem Built.bounded (built : Built policy) : policy.Bounded := by
  cases built with
  | immediate => exact ⟨Nat.le_refl _, Nat.zero_le _, Nat.one_pos, fun _ => rfl, fun _ => rfl⟩
  | @fixed delay _ made =>
    unfold BackoffPolicy.fixed at made
    cases checked : checkDelay delay with
    | error error =>
      rw [checked] at made
      cases made
    | ok _ =>
      rw [checked] at made
      cases made
      exact ⟨Nat.le_refl _, checkDelay_ok checked, Nat.one_pos, fun _ => rfl, nofun⟩
  | exponential made =>
    obtain ⟨capped, nonzero, ordered, rfl⟩ := exponential_ok made
    exact ⟨ordered, capped, Nat.pos_of_ne_zero nonzero, fun other => absurd rfl other, nofun⟩

section Delay

variable {policy : BackoffPolicy}

/-- Each retry behind the first multiplies the delay, up to the maximum. -/
private theorem grow_eq (grows : 0 < policy.multiplier) (below : nanos ≤ policy.maximum)
    (retries : Nat) :
    policy.grow retries nanos = min policy.maximum (nanos * policy.multiplier ^ retries) := by
  induction retries generalizing nanos with
  | zero =>
    rw [grow, Nat.pow_zero, Nat.mul_one, Nat.min_eq_right below]
  | succ retries ih =>
    have factors : nanos * policy.multiplier ^ (retries + 1) =
        nanos * policy.multiplier * policy.multiplier ^ retries := by ring
    rw [grow, factors]
    split
    · rename_i reached
      have more : nanos * policy.multiplier ≤
          nanos * policy.multiplier * policy.multiplier ^ retries :=
        Nat.le_mul_of_pos_right _ (Nat.pow_pos grows)
      rw [Nat.min_eq_left (reached.trans more)]
    · rename_i short
      exact ih (Nat.le_of_not_le short)

private theorem exponentialDelay_eq (bounded : policy.Bounded) (ordinal : Nat) :
    policy.exponentialDelay ordinal =
      min policy.maximum (policy.initial * policy.multiplier ^ (ordinal - 1)) := by
  unfold exponentialDelay
  split
  · rename_i reached
    have more : policy.initial ≤ policy.initial * policy.multiplier ^ (ordinal - 1) :=
      Nat.le_mul_of_pos_right _ (Nat.pow_pos bounded.grows)
    rw [Nat.min_eq_left (reached.trans more)]
  · split
    · exact grow_eq bounded.grows bounded.ordered _
    · rename_i single
      have one : policy.multiplier = 1 := Nat.le_antisymm (Nat.le_of_not_lt single) bounded.grows
      rw [one, Nat.one_pow, Nat.mul_one, Nat.min_eq_right bounded.ordered]

private theorem saturatingMul_reaches {left right ceiling : Nat} (fits : ceiling < 2 ^ 128) :
    ceiling ≤ saturatingMul left right ↔ ceiling ≤ left * right := by
  unfold saturatingMul
  omega

private theorem saturatingMul_below {left right ceiling : Nat} (fits : ceiling < 2 ^ 128)
    (short : ¬ ceiling ≤ saturatingMul left right) : saturatingMul left right = left * right := by
  unfold saturatingMul at short ⊢
  omega

private theorem maxBackoff_fits : maxBackoff < 2 ^ 64 := by decide

private theorem fromNanos_below (bounded : policy.Bounded) (below : nanos ≤ policy.maximum) :
    policy.fromNanos nanos = nanos :=
  if_pos (Nat.lt_of_le_of_lt (below.trans bounded.capped) maxBackoff_fits)

/-- No product saturates and no delay is too long for 64 bits. -/
private theorem rounds_eq_grow (bounded : policy.Bounded) (below : nanos ≤ policy.maximum)
    (retries : Nat) :
    (match policy.rounds retries nanos with
      | some nanos => policy.fromNanos nanos
      | none => policy.maximum) = policy.grow retries nanos := by
  have fits : policy.maximum < 2 ^ 128 :=
    Nat.lt_of_le_of_lt bounded.capped (maxBackoff_fits.trans (by decide))
  induction retries generalizing nanos with
  | zero => exact fromNanos_below bounded below
  | succ retries ih =>
    rw [rounds, grow]
    by_cases reached : policy.maximum ≤ saturatingMul nanos policy.multiplier
    · rw [if_pos reached, if_pos ((saturatingMul_reaches fits).mp reached)]
    · have short := fun product => reached ((saturatingMul_reaches fits).mpr product)
      have exactly := saturatingMul_below fits reached
      rw [if_neg reached, if_neg short, exactly]
      exact ih (Nat.le_of_not_le short)

private theorem machineExponentialDelay_eq (bounded : policy.Bounded) (ordinal : Nat) :
    policy.machineExponentialDelay ordinal = policy.exponentialDelay ordinal := by
  unfold machineExponentialDelay exponentialDelay
  split
  · rfl
  · split
    · exact rounds_eq_grow bounded bounded.ordered _
    · exact fromNanos_below bounded bounded.ordered

private theorem machineDelayFor_eq (bounded : policy.Bounded) (ordinal : Nat) :
    policy.machineDelayFor ordinal = policy.delayFor ordinal := by
  unfold machineDelayFor delayFor
  split
  · rfl
  · cases policy.kind with
    | none => rfl
    | fixed => rfl
    | exponential => exact machineExponentialDelay_eq bounded ordinal

theorem delayFor_exponential (bounded : policy.Bounded) (kind : policy.kind = .exponential)
    (retry : 0 < ordinal) : policy.delayFor ordinal =
      min policy.maximum (policy.initial * policy.multiplier ^ (ordinal - 1)) := by
  unfold delayFor
  rw [if_neg retry.ne', kind]
  exact exponentialDelay_eq bounded ordinal

private theorem delayFor_le (bounded : policy.Bounded) (ordinal : Nat) :
    policy.delayFor ordinal ≤ policy.maximum := by
  rcases Nat.eq_zero_or_pos ordinal with rfl | retry
  · exact Nat.zero_le _
  · cases kind : policy.kind with
    | none => simp [delayFor, kind]
    | fixed => simpa [delayFor, retry.ne', kind] using bounded.ordered
    | exponential =>
      rw [delayFor_exponential bounded kind retry]
      exact Nat.min_le_left _ _

private theorem delayFor_mono (bounded : policy.Bounded) (retry : 0 < ordinal)
    (later : ordinal ≤ ordinal') :
    policy.delayFor ordinal ≤ policy.delayFor ordinal' := by
  have retry' : 0 < ordinal' := Nat.lt_of_lt_of_le retry later
  cases kind : policy.kind with
  | none => simp [delayFor, kind]
  | fixed => simp [delayFor, kind, retry.ne', retry'.ne']
  | exponential =>
    rw [delayFor_exponential bounded kind retry, delayFor_exponential bounded kind retry']
    have powers : policy.multiplier ^ (ordinal - 1) ≤ policy.multiplier ^ (ordinal' - 1) :=
      Nat.pow_le_pow_right bounded.grows (by omega)
    exact min_le_min_left _ (Nat.mul_le_mul_left policy.initial powers)

end Delay

/-- The schedule of every accepted policy: the closed form of the exponential ones, no
shorter delay behind a longer one, the ceiling, and the machine words without effect. -/
theorem backoff_schedule (built : Built policy) :
    (policy.kind = .exponential → ∀ ordinal, 0 < ordinal → policy.machineDelayFor ordinal =
      min policy.maximum (policy.initial * policy.multiplier ^ (ordinal - 1))) ∧
    (∀ ordinal ordinal', 0 < ordinal → ordinal ≤ ordinal' →
      policy.machineDelayFor ordinal ≤ policy.machineDelayFor ordinal') ∧
    (∀ ordinal, policy.machineDelayFor ordinal ≤ policy.maximum) ∧
    policy.maximum ≤ 24 * 3600 * 10 ^ 9 ∧
    ∀ ordinal, policy.machineDelayFor ordinal = policy.delayFor ordinal := by
  have bounded := built.bounded
  have same := machineDelayFor_eq bounded
  simp only [same]
  exact ⟨fun kind _ retry => delayFor_exponential bounded kind retry,
    fun _ _ retry later => delayFor_mono bounded retry later, delayFor_le bounded,
    bounded.capped, fun _ => trivial⟩

/-- A schedule of 100 ms, doubled up to one second. -/
def doubling : BackoffPolicy := ⟨.exponential, 10 ^ 8, 2, 10 ^ 9⟩

theorem doubling_schedule :
    doubling.machineDelayFor 3 = 4 * 10 ^ 8 ∧ doubling.machineDelayFor 5 = 10 ^ 9 ∧
      (∀ ordinal, 0 < ordinal →
        doubling.machineDelayFor ordinal = min (10 ^ 9) (10 ^ 8 * 2 ^ (ordinal - 1))) := by
  have made : BackoffPolicy.exponential (10 ^ 8) 2 (10 ^ 9) = .ok doubling := by decide +kernel
  exact ⟨by decide +kernel, by decide +kernel, (backoff_schedule (.exponential made)).1 rfl⟩

end BackoffPolicy

end OxideBatch.Core
