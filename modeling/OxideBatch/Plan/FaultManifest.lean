import OxideBatch.Core.Backoff
import OxideBatch.Plan.Manifest

/-! What a fault manifest says about the decisions of its policy: durations are rendered in
whole milliseconds, so two policies with one manifest may wait differently. -/

namespace OxideBatch.Core

/-- A fault policy that its constructors returned. -/
inductive FaultPolicy.Built : FaultPolicy → Prop where
  | new (rules : ∀ rule ∈ declared, FaultRule.new rule.phase rule.category rule.action = .ok rule)
      (classified : FaultClassifier.new token declared = .ok table)
      (schedule : BackoffPolicy.Built delays) (retryBound : tries ≤ maxRetry)
      (stateBound : 1 ≤ keys ∧ keys ≤ 256) (skipBound : skips < 2 ^ 64)
      (made : FaultPolicy.new table tries keys skips delays = .ok policy) :
      FaultPolicy.Built policy

/-- Rules for different faults. -/
def FaultRule.Apart (left right : FaultRule) : Prop :=
  ¬ (left.phase = right.phase ∧ left.category = right.category)

instance : Std.Symm FaultRule.Apart :=
  ⟨fun _ _ apart same => apart ⟨same.1.symm, same.2.symm⟩⟩

/-- A classifier keeps its rules in order, no two of them for one fault. -/
theorem FaultClassifier.new_ok (made : FaultClassifier.new token declared = .ok table) :
    table.rules = declared ∧ declared.Pairwise FaultRule.Apart := by
  let accept := fun (accepted : List FaultRule) (rule : FaultRule) =>
    if accepted.any fun existing => existing.phase = rule.phase ∧ existing.category = rule.category
    then Except.error (FaultPolicyError.duplicateRule rule.phase rule.category)
    else .ok (accepted ++ [rule])
  have kept : ∀ (rules front final : List FaultRule), front.Pairwise FaultRule.Apart →
      rules.foldlM accept front = .ok final →
      final = front ++ rules ∧ final.Pairwise FaultRule.Apart := by
    intro rules
    induction rules with
    | nil =>
      intro front final apart folded
      cases folded
      exact ⟨(List.append_nil _).symm, apart⟩
    | cons rule rules ih =>
      intro front final apart folded
      rw [List.foldlM_cons] at folded
      by_cases repeated : (front.any fun existing =>
          existing.phase = rule.phase ∧ existing.category = rule.category) = true
      · rw [show accept front rule = .error _ from if_pos repeated] at folded
        cases folded
      · rw [show accept front rule = .ok (front ++ [rule]) from if_neg repeated] at folded
        have longer : (front ++ [rule]).Pairwise FaultRule.Apart := by
          refine List.pairwise_append.mpr ⟨apart, List.pairwise_singleton _ _, ?_⟩
          intro existing member other single same
          rw [List.mem_singleton.mp single] at same
          exact repeated (List.any_eq_true.mpr ⟨existing, member, decide_eq_true same⟩)
        obtain ⟨shape, done⟩ := ih _ _ longer folded
        rw [List.append_assoc] at shape
        exact ⟨shape, done⟩
  unfold FaultClassifier.new at made
  cases folded : declared.foldlM accept [] with
  | error error =>
    rw [folded] at made
    cases made
  | ok final =>
    rw [folded] at made
    cases made
    obtain ⟨rfl, apart⟩ := kept declared [] final .nil folded
    exact ⟨rfl, apart⟩

theorem FaultRule.new_eligible {rule made : FaultRule}
    (accepted : FaultRule.new rule.phase rule.category rule.action = .ok made) :
    rule.phase.isPolicyEligible = true ∧ rule.category.isPolicyEligible = true := by
  unfold FaultRule.new at accepted
  split at accepted
  · cases accepted
  · rename_i eligible
    simpa using eligible

namespace FaultPolicy

theorem new_ok (made : FaultPolicy.new table tries keys skips delays = .ok policy) :
    policy = ⟨table, tries, keys, skips, delays⟩ ∧
      ∀ rule ∈ table.rules, rule.action.retryable = true → 0 < tries := by
  unfold FaultPolicy.new at made
  split at made
  · split at made
    · cases made
    · rename_i nonzero
      cases made
      exact ⟨rfl, fun _ _ _ => Nat.pos_of_ne_zero nonzero⟩
  · rename_i absent
    cases made
    refine ⟨rfl, fun rule member retryable => ?_⟩
    exact absurd retryable (List.find?_eq_none.mp absent rule member)

/-- What the constructors of a policy promise about it. -/
structure Sound (policy : FaultPolicy) : Prop where
  eligible : ∀ rule ∈ policy.classifier.rules,
    rule.phase.isPolicyEligible = true ∧ rule.category.isPolicyEligible = true
  apart : policy.classifier.rules.Pairwise FaultRule.Apart
  reachable : ∀ rule ∈ policy.classifier.rules, rule.action.retryable = true → 0 < policy.retryLimit
  retryBound : policy.retryLimit ≤ maxRetry
  schedule : policy.backoff.Bounded

theorem Built.sound (built : Built policy) : policy.Sound := by
  cases built with
  | new rules classified schedule retryBound stateBound skipBound made =>
    obtain ⟨rfl, apart⟩ := FaultClassifier.new_ok classified
    obtain ⟨rfl, reachable⟩ := new_ok made
    exact ⟨fun rule member => FaultRule.new_eligible (rules rule member), apart, reachable,
      retryBound, schedule.bounded⟩

private theorem actionFor_rule {policy : FaultPolicy}
    (apart : policy.classifier.rules.Pairwise FaultRule.Apart)
    (member : rule ∈ policy.classifier.rules) :
    policy.classifier.actionFor rule.phase rule.category = some rule.action := by
  unfold FaultClassifier.actionFor
  cases found : policy.classifier.rules.find? fun other =>
      other.phase = rule.phase ∧ other.category = rule.category with
  | none =>
    have missed := List.find?_eq_none.mp found rule member
    simp at missed
  | some other =>
    have same : other.phase = rule.phase ∧ other.category = rule.category := by
      simpa using List.find?_some found
    by_cases equal : other = rule
    · rw [equal]
      rfl
    · exact False.elim (apart.forall (List.mem_of_find?_eq_some found) member equal same)

/-- A granted retry stands on a rule that retries. -/
private theorem retries_rule {policy : FaultPolicy}
    (granted : policy.retries phase category held = some ordinal) :
    ∃ rule ∈ policy.classifier.rules, rule.phase = phase ∧ rule.category = category ∧
      rule.action.retryable = true := by
  simp only [retries, Option.bind_eq_bind, Option.bind_eq_some_iff] at granted
  obtain ⟨action, acted, granted⟩ := granted
  split at granted
  · rename_i retryable
    obtain ⟨rule, found, rfl⟩ := Option.map_eq_some_iff.mp acted
    have suits : rule.phase = phase ∧ rule.category = category := by
      simpa using List.find?_some found
    exact ⟨rule, List.mem_of_find?_eq_some found, suits.1, suits.2, retryable⟩
  · cases granted

/-- A fault that a rule retries is retried up to the limit, behind the delay of its ordinal. -/
private theorem decide_rule {policy : FaultPolicy} (sound : policy.Sound)
    (member : rule ∈ policy.classifier.rules) (retryable : rule.action.retryable = true)
    (phase : fault.phase = rule.phase) (category : fault.category = rule.category)
    (within : fault.retryOrdinal < policy.retryLimit) : policy.decide fault evidence =
      .retry (fault.retryOrdinal + 1) (policy.backoff.delayFor (fault.retryOrdinal + 1)) := by
  obtain ⟨eligible, eligible'⟩ := sound.eligible rule member
  have found := actionFor_rule sound.apart member
  have bounded : fault.retryOrdinal < maxRetry := Nat.lt_of_lt_of_le within sound.retryBound
  have granted : policy.retries rule.phase rule.category fault.retryOrdinal =
      some (fault.retryOrdinal + 1) := by
    simp [retries, found, retryable, checkedNext, bounded, Option.filter, permits,
      Nat.succ_le_of_lt within]
  have known : rule.category ≠ .unknownCommit := by
    intro same
    rw [same] at eligible'
    cases eligible'
  have running : rule.category ≠ .cancelled := by
    intro same
    rw [same] at eligible'
    cases eligible'
  unfold decide
  simp [phase, category, known, running, eligible, eligible', found, granted]

end FaultPolicy

end OxideBatch.Core

namespace OxideBatch.Plan

open OxideBatch.Core

theorem category_asStr_injective {left right : FailureCategory} (same : left.asStr = right.asStr) :
    left = right := by
  cases left <;> cases right <;> first | rfl | simp [FailureCategory.asStr] at same

private theorem phase_asStr_injective {left right : FaultPhase} (same : left.asStr = right.asStr) :
    left = right := by
  cases left <;> cases right <;> first | rfl | simp [FaultPhase.asStr] at same

private theorem backoffKind_asStr_injective {left right : BackoffKind}
    (same : left.asStr = right.asStr) :
    left = right := by
  cases left <;> cases right <;> first | rfl | simp [BackoffKind.asStr] at same

private theorem skipManifest_injective {left right : Option RollbackDisposition}
    (same : (left.map fun skip => Json.string skip.asStr).getD .null =
      (right.map fun skip => Json.string skip.asStr).getD .null) : left = right := by
  rcases left with _ | left <;> rcases right with _ | right
  · rfl
  · cases same
  · cases same
  · cases left <;> cases right <;> first | rfl | simp [RollbackDisposition.asStr] at same

private theorem faultRuleManifest_injective : Function.Injective faultRuleManifest := by
  intro left right same
  obtain ⟨category, phase, retryable, skip⟩ := left
  obtain ⟨category', phase', retryable', skip'⟩ := right
  simp only [faultRuleManifest, Json.object.injEq, List.cons.injEq, Prod.mk.injEq, true_and,
    Json.string.injEq, Json.bool.injEq, and_true] at same
  obtain ⟨sameCategory, samePhase, sameRetryable, sameSkip⟩ := same
  rw [category_asStr_injective sameCategory, phase_asStr_injective samePhase, sameRetryable,
    skipManifest_injective sameSkip]

/-- What two policies with one manifest share. -/
structure SameManifest (left right : FaultPolicy) : Prop where
  classifier : left.classifier.rules = right.classifier.rules
  kind : left.backoff.kind = right.backoff.kind
  multiplier : left.backoff.multiplier = right.backoff.multiplier
  retryLimit : left.retryLimit = right.retryLimit
  skipLimit : left.skipLimit = right.skipLimit

private theorem sameManifest_of_value {left right : FaultPolicy}
    (same : faultManifestValue left = faultManifestValue right) : SameManifest left right := by
  simp only [faultManifestValue, Json.object.injEq, List.cons.injEq, Prod.mk.injEq, true_and,
    Json.string.injEq, Json.array.injEq, number, Json.integer.injEq, Int.natCast_inj,
    and_true] at same
  obtain ⟨⟨_, kind, _, multiplier⟩, ⟨_, rules⟩, retryLimit, _, skipLimit⟩ := same
  exact ⟨faultRuleManifest_injective.list_map rules, backoffKind_asStr_injective kind, multiplier,
    retryLimit, skipLimit⟩

/-- Schedules that agree on every retry a policy permits: no rule retries, or they start with
the same delay and, unless they share the ceiling, neither ceiling cuts the last delay. -/
def SameDelays (left right : FaultPolicy) : Prop :=
  (∀ rule ∈ left.classifier.rules, rule.action.retryable = false) ∨
    left.backoff.initial = right.backoff.initial ∧
      (left.backoff.maximum = right.backoff.maximum ∨
        left.backoff.initial * left.backoff.multiplier ^ (left.retryLimit - 1) ≤
          min left.backoff.maximum right.backoff.maximum)

theorem SameManifest.retries {left right : FaultPolicy} (alike : SameManifest left right) :
    left.retries = right.retries := by
  funext phase category ordinal
  unfold FaultPolicy.retries FaultClassifier.actionFor FaultPolicy.permits
  rw [alike.classifier, alike.retryLimit]

theorem SameManifest.decideSkip {left right : FaultPolicy} (alike : SameManifest left right) :
    left.decideSkip = right.decideSkip := by
  funext fault disposition evidence
  unfold FaultPolicy.decideSkip
  rw [alike.skipLimit]

/-- Policies alike decide alike when their delays agree on the retries they grant. -/
theorem SameManifest.decide {left right : FaultPolicy} (alike : SameManifest left right)
    (delays : ∀ phase category held ordinal,
      left.retries phase category held = some ordinal →
        left.backoff.delayFor ordinal = right.backoff.delayFor ordinal) :
    left.decide fault evidence = right.decide fault evidence := by
  have actions : left.classifier.actionFor = right.classifier.actionFor := by
    funext phase category
    unfold FaultClassifier.actionFor
    rw [alike.classifier]
  unfold FaultPolicy.decide
  rw [← actions, ← alike.retries, ← alike.decideSkip]
  cases granted : left.retries fault.phase fault.category fault.retryOrdinal with
  | none => rfl
  | some ordinal =>
    dsimp only
    rw [delays _ _ _ _ granted]

/-- Delays with one start and one growth agree as long as the ceilings do not cut them. -/
private theorem delayFor_agree {left right : FaultPolicy} (alike : SameManifest left right)
    (bounded : left.backoff.Bounded) (bounded' : right.backoff.Bounded)
    (start : left.backoff.initial = right.backoff.initial)
    (ceiling : left.backoff.maximum = right.backoff.maximum ∨
      left.backoff.initial * left.backoff.multiplier ^ (left.retryLimit - 1) ≤
        min left.backoff.maximum right.backoff.maximum)
    (retry : 0 < ordinal) (within : ordinal ≤ left.retryLimit) :
    left.backoff.delayFor ordinal = right.backoff.delayFor ordinal := by
  cases kind : left.backoff.kind with
  | none => simp [BackoffPolicy.delayFor, kind, alike.kind.symm.trans kind]
  | fixed => simp [BackoffPolicy.delayFor, kind, alike.kind.symm.trans kind, start]
  | exponential =>
    rw [BackoffPolicy.delayFor_exponential bounded kind retry,
      BackoffPolicy.delayFor_exponential bounded' (alike.kind.symm.trans kind) retry,
      ← start, ← alike.multiplier]
    rcases ceiling with same | uncut
    · rw [same]
    · have powers : left.backoff.multiplier ^ (ordinal - 1) ≤
          left.backoff.multiplier ^ (left.retryLimit - 1) :=
        Nat.pow_le_pow_right bounded.grows (by omega)
      have products := Nat.mul_le_mul_left left.backoff.initial powers
      obtain ⟨first, second⟩ := le_min_iff.mp (products.trans uncut)
      rw [min_eq_right first, min_eq_right second]

private theorem delayFor_first (bounded : BackoffPolicy.Bounded policy) :
    policy.delayFor 1 = policy.initial := by
  cases kind : policy.kind with
  | none => simp [BackoffPolicy.delayFor, kind, bounded.idle kind]
  | fixed => simp [BackoffPolicy.delayFor, kind]
  | exponential =>
    rw [BackoffPolicy.delayFor_exponential bounded kind Nat.one_pos, Nat.sub_self, Nat.pow_zero,
      Nat.mul_one, min_eq_right bounded.ordered]

/-- Delays that agree on every permitted retry have one start, and ceilings that are equal or
cut none of them. -/
private theorem sameDelays_of_agree {left right : FaultPolicy} (alike : SameManifest left right)
    (bounded : left.backoff.Bounded) (bounded' : right.backoff.Bounded)
    (some_retry : 0 < left.retryLimit)
    (agree : ∀ ordinal, 0 < ordinal → ordinal ≤ left.retryLimit →
      left.backoff.delayFor ordinal = right.backoff.delayFor ordinal) :
    left.backoff.initial = right.backoff.initial ∧
      (left.backoff.maximum = right.backoff.maximum ∨
        left.backoff.initial * left.backoff.multiplier ^ (left.retryLimit - 1) ≤
          min left.backoff.maximum right.backoff.maximum) := by
  have start : left.backoff.initial = right.backoff.initial := by
    rw [← delayFor_first bounded, ← delayFor_first bounded']
    exact agree 1 Nat.one_pos some_retry
  refine ⟨start, ?_⟩
  by_cases kind : left.backoff.kind = .exponential
  · have last := agree left.retryLimit some_retry (Nat.le_refl _)
    rw [BackoffPolicy.delayFor_exponential bounded kind some_retry,
      BackoffPolicy.delayFor_exponential bounded' (alike.kind.symm.trans kind) some_retry,
      ← start, ← alike.multiplier] at last
    by_cases uncut : left.backoff.initial * left.backoff.multiplier ^ (left.retryLimit - 1) ≤
        left.backoff.maximum
    · rw [min_eq_right uncut] at last
      exact .inr (le_min uncut (last ▸ min_le_left _ _))
    · rw [min_eq_left (Nat.le_of_not_le uncut)] at last
      left
      rcases min_choice right.backoff.maximum
          (left.backoff.initial * left.backoff.multiplier ^ (left.retryLimit - 1)) with
        same | same
      · exact last.trans same
      · exact absurd (le_of_eq (last.trans same).symm) uncut
  · left
    rw [bounded.constant kind, bounded'.constant (alike.kind ▸ kind), start]

/-- Two policies with one manifest decide alike on every fault exactly when their schedules
agree on every retry they permit. -/
theorem decisions_agree_iff (built : FaultPolicy.Built left) (built' : FaultPolicy.Built right)
    (same : faultManifestValue left = faultManifestValue right) :
    (∀ fault evidence, left.decide fault evidence = right.decide fault evidence) ↔
      SameDelays left right := by
  have alike := sameManifest_of_value same
  have sound := built.sound
  have sound' := built'.sound
  constructor
  · intro agree
    by_cases quiet : ∀ rule ∈ left.classifier.rules, rule.action.retryable = false
    · exact .inl quiet
    · right
      push Not at quiet
      obtain ⟨rule, member, retries⟩ := quiet
      have retryable : rule.action.retryable = true := by simpa using retries
      refine sameDelays_of_agree alike sound.schedule sound'.schedule
        (sound.reachable rule member retryable) fun ordinal retry within => ?_
      obtain ⟨held, rfl⟩ := Nat.exists_eq_succ_of_ne_zero retry.ne'
      let fault : FaultDescriptor :=
        ⟨rule.phase, ⟨rule.category, 1⟩, held, .zero, false, .atLeastOnce⟩
      have within' : held < right.retryLimit := alike.retryLimit ▸ Nat.lt_of_succ_le within
      have decided : left.decide fault ⟨false, false, false⟩ = _ :=
        FaultPolicy.decide_rule sound member retryable rfl rfl within
      have decided' : right.decide fault ⟨false, false, false⟩ = _ :=
        FaultPolicy.decide_rule sound' (alike.classifier ▸ member) retryable rfl rfl within'
      rw [agree fault ⟨false, false, false⟩, decided'] at decided
      exact (FaultDecision.retry.inj decided).2.symm
  · rintro (quiet | ⟨start, ceiling⟩) fault evidence
    · refine alike.decide fun phase category held ordinal granted => ?_
      obtain ⟨rule, member, _, _, retryable⟩ := FaultPolicy.retries_rule granted
      rw [quiet rule member] at retryable
      cases retryable
    · refine alike.decide fun phase category held ordinal granted => ?_
      obtain ⟨retry, within⟩ := FaultPolicy.retries_within granted
      exact delayFor_agree alike sound.schedule sound'.schedule start ceiling retry within

/-- A policy that retries failed reads. -/
def readRetries (limit : Nat) (backoff : BackoffPolicy) : FaultPolicy :=
  ⟨⟨⟨"r1", Eq.refl true⟩, [⟨.userComponent, .read, .retry⟩]⟩, limit, 16, 0, backoff⟩

private theorem readRetries_built (schedule : BackoffPolicy.Built backoff) (some_retry : 0 < limit)
    (within : limit ≤ maxRetry) : FaultPolicy.Built (readRetries limit backoff) := by
  have accepted : ∀ rule ∈ [(⟨.userComponent, .read, .retry⟩ : FaultRule)],
      FaultRule.new rule.phase rule.category rule.action = .ok rule := by decide
  have built : FaultPolicy.new ⟨⟨"r1", by decide⟩, [⟨.userComponent, .read, .retry⟩]⟩ limit 16 0
      backoff = .ok (readRetries limit backoff) := by
    unfold FaultPolicy.new
    simp [readRetries, FaultAction.retry, some_retry.ne']
  exact .new accepted rfl schedule within (by decide) (by decide) built

/-- Schedules of 1 ms and 1.5 ms have one manifest and different delays. -/
theorem manifest_drops_nanoseconds :
    ∃ left right : FaultPolicy, FaultPolicy.Built left ∧ FaultPolicy.Built right ∧
      faultManifestValue left = faultManifestValue right ∧
      ∃ fault evidence, left.decide fault evidence ≠ right.decide fault evidence := by
  let constant (delay : Duration) : BackoffPolicy := ⟨.fixed, delay, 1, delay⟩
  have short : BackoffPolicy.fixed 1000000 = .ok (constant 1000000) := by decide
  have long : BackoffPolicy.fixed 1500000 = .ok (constant 1500000) := by decide
  have same : faultManifestValue (readRetries 1 (constant 1000000)) =
      faultManifestValue (readRetries 1 (constant 1500000)) := by
    have rounded : durationMillis 1000000 = durationMillis 1500000 := by decide
    simp only [faultManifestValue, readRetries, constant, rounded]
  exact ⟨readRetries 1 (constant 1000000), readRetries 1 (constant 1500000),
    readRetries_built (.fixed short) (by decide) (by decide),
    readRetries_built (.fixed long) (by decide) (by decide), same,
    ⟨.read, ⟨.userComponent, 1⟩, 0, .zero, false, .atLeastOnce⟩, ⟨true, true, true⟩, by decide⟩

/-- Two retries behind delays of 1 ms and 2 ms, below either ceiling. -/
theorem uncut_schedules_agree :
    SameDelays (readRetries 2 ⟨.exponential, 1000000, 2, 10000000⟩)
        (readRetries 2 ⟨.exponential, 1000000, 2, 10500000⟩) ∧
      (readRetries 2 ⟨.exponential, 1000000, 2, 10000000⟩).decide
          ⟨.read, ⟨.userComponent, 1⟩, 1, .zero, false, .atLeastOnce⟩ ⟨true, true, true⟩ =
        (readRetries 2 ⟨.exponential, 1000000, 2, 10500000⟩).decide
          ⟨.read, ⟨.userComponent, 1⟩, 1, .zero, false, .atLeastOnce⟩ ⟨true, true, true⟩ := by
  have low : BackoffPolicy.exponential 1000000 2 10000000 =
      .ok ⟨.exponential, 1000000, 2, 10000000⟩ := by decide
  have high : BackoffPolicy.exponential 1000000 2 10500000 =
      .ok ⟨.exponential, 1000000, 2, 10500000⟩ := by decide
  have uncut : SameDelays (readRetries 2 ⟨.exponential, 1000000, 2, 10000000⟩)
      (readRetries 2 ⟨.exponential, 1000000, 2, 10500000⟩) := .inr ⟨rfl, .inr (by decide)⟩
  exact ⟨uncut, (decisions_agree_iff (readRetries_built (.exponential low) (by decide) (by decide))
    (readRetries_built (.exponential high) (by decide) (by decide)) rfl).mpr uncut _ _⟩

end OxideBatch.Plan
