import OxideBatch.Chunk.OrderlyLoop
import OxideBatch.Chunk.ReadAccount

/-! What a run of the chunk loop settles: skips stay within the policy's limit, the report is
the committed work, and an unknown commit ends the run as unknown. -/

namespace OxideBatch.Chunk

open OxideBatch.Core OxideBatch.Lib

variable {I O : Type}

section Policy

/-- A step with the fault policy it may have. -/
def Components.under (components : Components)
    (policy : Option (FaultPolicy × ChunkDeliveryMode)) : Components :=
  { components with fault := policy.map fun installed => policyRuntime installed.1 installed.2 }

private theorem under_lawful (components : Components)
    {policy : Option (FaultPolicy × ChunkDeliveryMode)}
    {limit : Nat} (representable : limit < u64Limit)
    (allows : ∀ installed ∈ policy, installed.1.skipLimit ≤ limit) :
    Lawful limit (components.under policy) := by
  refine ⟨representable, ?_, ?_⟩
  · intro runtime fault evidence disposition installed decided
    obtain ⟨⟨held, mode⟩, given, rfl⟩ := Option.map_eq_some_iff.mp installed
    obtain ⟨total, counted, within⟩ := FaultPolicy.decide_skip_within decided
    obtain ⟨next, incremented, counted⟩ := Option.bind_eq_some_iff.mp counted
    obtain ⟨same, _⟩ := SkipCounts.checkedTotal_eq_some.mp counted
    refine ⟨next, incremented, ?_⟩
    rw [same]
    exact within.trans (allows _ given)
  · intro runtime fault evidence installed unknown
    obtain ⟨⟨held, mode⟩, _, rfl⟩ := Option.map_eq_some_iff.mp installed
    exact if_pos unknown

private theorem governed_eq_under (components : Components) (policy : FaultPolicy)
    (deliveryMode : ChunkDeliveryMode) :
    components.governed policy deliveryMode = components.under (some (policy, deliveryMode)) := rfl

end Policy

section Skips

private theorem receipts_append (earlier later : Trace I O) :
    receipts (earlier ++ later) = receipts earlier ++ receipts later := by
  simp [receipts]

private theorem sumSkips_append_total (inherited : SkipCounts) (earlier later : List Receipt) :
    (sumSkips inherited earlier).total ≤ (sumSkips inherited (earlier ++ later)).total := by
  induction later using List.reverseRecOn with
  | nil => rw [List.append_nil]
  | append_singleton later receipt ih =>
    rw [← List.append_assoc, sumSkips_snoc, SkipCounts.total_plus]
    omega

/-- A call that tells of an attempt that did not commit. -/
def Event.deniesCommit (event : Event I O) : Bool :=
  match event.query with
  | .emit (.rolledBack _) => true
  | .afterChunk _ _ outcome | .policyEnd outcome => outcome ≠ .committed
  | _ => false

theorem ProperAt.confirms {components : Components} {trace : Trace I O} {event : Event I O}
    (proper : ProperAt components trace event) (committed : standingOf trace = .closed .committed) :
    event.deniesCommit = false := by
  obtain ⟨query, answer⟩ := event
  cases query with
  | emit told =>
    cases told with
    | rolledBack sequence => exact absurd committed proper
    | _ => rfl
  | afterChunk index sequence outcome => simpa [Event.deniesCommit] using proper.mpr committed
  | policyEnd outcome => simpa [Event.deniesCommit] using proper.2.mpr committed
  | _ => rfl

/-- Inherited and committed skips stay within the limit at every point of a run, so the
addition behind a receipt succeeds and no committed attempt is told of as rolled back. -/
theorem run_skips_within (env : Environment I O) (components : Components) (policy : FaultPolicy)
    (deliveryMode : ChunkDeliveryMode) (typed : policy.skipLimit < u64Limit)
    {inherited : SkipCounts} (within : inherited.total ≤ policy.skipLimit) (retries : RetryCounts)
    (noRollbacks fuel rounds : Nat) (checkpointDigest : Digest) :
    let exec := (run env (components.governed policy deliveryMode) fuel rounds checkpointDigest
      (.inheriting inherited retries noRollbacks)).2
    (∀ earlier later, exec.trace = earlier ++ later →
      (sumSkips inherited (receipts earlier)).total ≤ policy.skipLimit) ∧
    (∀ earlier event later receipt, exec.trace = earlier ++ event :: later →
      event.receipt = some receipt →
      (sumSkips inherited (receipts earlier)).checkedAdd receipt.skips =
        some (sumSkips inherited (receipts (earlier ++ [event])))) ∧
    exec.state.skipCounts = sumSkips inherited (receipts exec.trace) ∧
    (∀ earlier event later, exec.trace = earlier ++ event :: later →
      standingOf earlier = .closed .committed → event.deniesCommit = false) := by
  intro exec
  have lawful : Lawful policy.skipLimit (components.governed policy deliveryMode) := by
    rw [governed_eq_under]
    refine under_lawful components typed ?_
    rintro _ ⟨⟩
    exact le_refl _
  have underway : Underway policy.skipLimit (components.governed policy deliveryMode) inherited
      exec := (run_finishes env lawful within retries noRollbacks fuel rounds
        checkpointDigest).underway
  have bounded : ∀ earlier later, exec.trace = earlier ++ later →
      (sumSkips inherited (receipts earlier)).total ≤ policy.skipLimit := by
    intro earlier later split
    have whole := underway.spent
    rw [underway.skips, split, receipts_append] at whole
    exact (sumSkips_append_total _ _ _).trans whole
  refine ⟨bounded, ?_, underway.skips, ?_⟩
  · intro earlier event later receipt split paid
    have next : receipts (earlier ++ [event]) = receipts earlier ++ [receipt] := by
      rw [receipts_snoc, paid]
      rfl
    have fits := bounded (earlier ++ [event]) later (by simp [split])
    rw [next, sumSkips_snoc] at fits ⊢
    exact SkipCounts.checkedAdd_eq_some.mpr ⟨rfl, lt_of_le_of_lt fits typed⟩
  · intro earlier event later split committed
    exact (underway.proper earlier event later split).confirms committed

/-- A read skipped under a limit of one. -/
theorem skipping_run_within :
    ∃ policy, onePolicy .read (.skipping .rollback) = .ok policy ∧
      (sumSkips .zero (receipts (lossyTrace policy))).total = 1 ∧
      (sumSkips .zero (receipts (lossyTrace policy))).total ≤ policy.skipLimit := by
  refine ⟨_, rfl, by decide +kernel, ?_⟩
  refine (run_skips_within losingReader pairComponents _ .atLeastOnce ?_ ?_ .zero 0 5 3 []).1 _ []
    (List.append_nil _).symm
  · simp [u64Limit]
  · simp [SkipCounts.total, SkipCounts.zero]

end Skips

section Transactions

def Event.begins (event : Event I O) : Bool :=
  match event.query with
  | .begin => true
  | _ => false

/-- The last call of a transaction: a commit with a receipt or an unknown outcome, or a
rollback. -/
def Event.resolves (event : Event I O) : Bool :=
  match event with
  | ⟨.commit _ _ _ _, .ok _⟩ | ⟨.commit _ _ _ _, .error .commitOutcomeUnknown⟩ => true
  | ⟨.rollback, _⟩ => true
  | _ => false

def Event.commitUnknown (event : Event I O) : Bool :=
  match event with
  | ⟨.commit _ _ _ _, .error .commitOutcomeUnknown⟩ => true
  | _ => false

/-- Calls on transactions. -/
def Query.moves : Query I O → Bool
  | .begin | .commit _ _ _ _ | .rollback => true
  | _ => false

private theorem standingStep_unmoved {event : Event I O} (unmoved : event.query.moves = false)
    (standing : Standing) : standingStep standing event = standing := by
  obtain ⟨query, answer⟩ := event
  cases query <;> first | rfl | cases unmoved

private theorem resolves_unmoved {event : Event I O} (unmoved : event.query.moves = false) :
    event.resolves = false := by
  obtain ⟨query, answer⟩ := event
  cases query <;> first | rfl | cases unmoved

private theorem begins_unmoved {event : Event I O} (unmoved : event.query.moves = false) :
    event.begins = false := by
  obtain ⟨query, answer⟩ := event
  cases query <;> first | rfl | cases unmoved

variable {components : Components}

/-- A call on an open transaction resolves it or leaves it open. -/
theorem ProperAt.resolves_once {trace : Trace I O} {event : Event I O}
    (proper : ProperAt components trace event) (moves : event.query.moves = true)
    (within : event.begins = false) :
    standingOf trace = .opened ∧
      ((event.resolves = true ∧ ∃ fate, standingStep .opened event = .closed fate) ∨
        (event.resolves = false ∧ standingStep .opened event = .opened)) := by
  obtain ⟨query, answer⟩ := event
  cases query with
  | commit counts progress componentState slots =>
    refine ⟨proper.1, ?_⟩
    cases answer with
    | ok receipt => exact .inl ⟨rfl, .committed, rfl⟩
    | error error =>
      cases error with
      | commitOutcomeUnknown => exact .inl ⟨rfl, .unknown, rfl⟩
      | notCommitted => exact .inr ⟨rfl, rfl⟩
      | componentStateUnsupported => exact .inr ⟨rfl, rfl⟩
  | rollback =>
    refine ⟨proper, .inl ⟨rfl, ?_⟩⟩
    cases answer with
    | true => exact ⟨.rolledBack, rfl⟩
    | false => exact ⟨.lost, rfl⟩
  | begin => cases within
  | _ => cases moves

/-- A transaction that was begun is open until one call resolves it. -/
private theorem resolved_once {earlier attempt : Trace I O}
    (proper : Throughout (ProperAt components) (earlier ++ ⟨.begin, .ok ()⟩ :: attempt))
    (within : ∀ event ∈ attempt, event.begins = false) :
    (standingOf (earlier ++ ⟨.begin, .ok ()⟩ :: attempt) = .opened ∧
        attempt.countP Event.resolves = 0) ∨
      (∃ fate, standingOf (earlier ++ ⟨.begin, .ok ()⟩ :: attempt) = .closed fate ∧
        attempt.countP Event.resolves = 1) := by
  induction attempt using List.reverseRecOn with
  | nil => exact .inl ⟨standingOf_snoc _ _, rfl⟩
  | append_singleton attempt event ih =>
    rw [← List.cons_append, ← List.append_assoc] at proper ⊢
    have held := ih proper.of_append fun other member => within other (by simp [member])
    have here := proper _ event [] rfl
    have inner := within event (by simp)
    rw [standingOf_snoc, List.countP_append, List.countP_singleton]
    cases moves : event.query.moves with
    | false =>
      rw [standingStep_unmoved moves, resolves_unmoved moves]
      exact held
    | true =>
      obtain ⟨opened, resolution⟩ := here.resolves_once moves inner
      rcases held with ⟨_, unresolved⟩ | ⟨fate, closed, _⟩
      · rw [opened, unresolved]
        rcases resolution with ⟨resolves, fate, closes⟩ | ⟨fails, stays⟩
        · exact .inr ⟨fate, closes, by simp [resolves]⟩
        · exact .inl ⟨stays, by simp [fails]⟩
      · rw [opened] at closed
        cases closed

/-- Behind an unknown commit nothing is begun. -/
private theorem unknown_stays {earlier later : Trace I O} {event : Event I O}
    (proper : Throughout (ProperAt components) (earlier ++ event :: later))
    (unknown : event.commitUnknown = true) :
    standingOf (earlier ++ event :: later) = .closed .unknown ∧
      ∀ other ∈ later, other.begins = false := by
  induction later using List.reverseRecOn with
  | nil =>
    refine ⟨?_, by simp⟩
    rw [standingOf_snoc]
    obtain ⟨query, answer⟩ := event
    cases query with
    | commit counts progress componentState slots =>
      cases answer with
      | ok receipt => cases unknown
      | error error => cases error <;> first | rfl | cases unknown
    | _ => cases unknown
  | append_singleton later other ih =>
    rw [← List.cons_append, ← List.append_assoc] at proper ⊢
    obtain ⟨closed, begun⟩ := ih proper.of_append
    have here := proper _ other [] rfl
    have unmoved : other.query.moves = false := by
      obtain ⟨query, answer⟩ := other
      cases query with
      | begin =>
        have between := here.1
        rw [closed] at between
        simp at between
      | commit counts progress componentState slots =>
        have opened := here.1
        rw [closed] at opened
        cases opened
      | rollback =>
        have opened : standingOf _ = _ := here
        rw [closed] at opened
        cases opened
      | _ => rfl
    refine ⟨?_, ?_⟩
    · rw [standingOf_snoc, closed, standingStep_unmoved unmoved]
    · intro last member
      rcases List.mem_append.mp member with before | same
      · exact begun last before
      · rw [List.mem_singleton.mp same]
        exact begins_unmoved unmoved

end Transactions

section Classified

/-- A retry listener failed behind the retry that a fault ended. -/
def Event.failsRetry (event : Event I O) : Bool :=
  match event with
  | ⟨.after (.afterRetry _ _) _, _ :: _⟩ => true
  | _ => false

/-- A retry listener failed when a fault of an unknown commit ended its unit's retries. -/
def Event.masksUnknown (event : Event I O) : Bool :=
  match event with
  | ⟨.after (.retryExhausted fault) _, _ :: _⟩ => fault.category = .unknownCommit
  | _ => false

/-- Listeners let the error of an unknown commit through. -/
def Event.passesUnknown (event : Event I O) : Bool :=
  match event with
  | ⟨.after pass _, []⟩ => pass.fault?.any fun fault => fault.category = .unknownCommit
  | _ => false

/-- A policy classified a fault as unknown: listeners let its error through, and the retry it
ended, if any, was closed. -/
def ClassifiesUnknown (components : Components) (event : Event I O) (later : Trace I O) : Prop :=
  components.fault.isSome = true ∧ event.passesUnknown = true ∧
    ∀ next ∈ later.head?, next.failsRetry = false

private theorem unknownStep_passesUnknown {event : Event I O} (passes : event.passesUnknown = true)
    (held : Bool) : unknownStep held event = true := by
  obtain ⟨query, answer⟩ := event
  cases query with
  | after pass entered =>
    cases answer with
    | nil =>
      change pass.fault?.any (fun fault => fault.category = .unknownCommit) = true at passes
      cases tells : pass.fault? with
      | none => simp [tells] at passes
      | some fault =>
        have unknown : fault.category = .unknownCommit := by simpa [tells] using passes
        simp [unknownStep, tells, unknown]
    | cons first rest => cases passes
  | _ => cases passes

variable {components : Components}

private theorem doomed_snoc {trace : Trace I O} {event : Event I O}
    (doomed : Doomed components trace)
    (held : unknownStep true event = true) : Doomed components (trace ++ [event]) := by
  refine ⟨doomed.1, ?_⟩
  rw [unknownFault_snoc, doomed.2, held]

/-- Calls behind a fault classified as unknown. -/
theorem ProperAt.doomed {trace : Trace I O} {event : Event I O}
    (proper : ProperAt components trace event) (doomed : Doomed components trace)
    (unmasked : event.masksUnknown = false) :
    event.begins = false ∧ event.tellsFault = false ∧
      (unknownStep true event = true ∨
        event.failsRetry = true ∧ ∃ last ∈ trace.getLast?, last.tellsFault = true) := by
  obtain ⟨query, answer⟩ := event
  cases query with
  | begin => exact absurd doomed proper.2.2
  | after pass entered =>
    have heard : Heard trace pass := proper doomed
    cases pass with
    | afterRetry fault outcome =>
      cases answer with
      | nil => exact ⟨rfl, rfl, .inl rfl⟩
      | cons first rest => exact ⟨rfl, rfl, .inr ⟨rfl, heard⟩⟩
    | retryExhausted fault =>
      cases answer with
      | nil => exact ⟨rfl, rfl, .inl rfl⟩
      | cons first rest =>
        have unknown : fault.category = .unknownCommit := heard
        have masked : decide (fault.category = .unknownCommit) = false := unmasked
        exact absurd unknown (of_decide_eq_false masked)
    | _ => exact heard.elim
  | _ => exact ⟨rfl, rfl, .inl rfl⟩

/-- Behind a fault classified as unknown nothing is begun. -/
private theorem doomed_stays {earlier later : Trace I O} {event : Event I O}
    (proper : Throughout (ProperAt components) (earlier ++ event :: later))
    (classified : ClassifiesUnknown components event later)
    (unmasked : ∀ other ∈ later, other.masksUnknown = false) :
    Doomed components (earlier ++ event :: later) ∧
      ∀ other ∈ later, other.begins = false ∧ other.tellsFault = false := by
  induction later using List.reverseRecOn with
  | nil =>
    refine ⟨⟨classified.1, ?_⟩, by simp⟩
    rw [unknownFault_snoc]
    exact unknownStep_passesUnknown classified.2.1 _
  | append_singleton later other ih =>
    rw [← List.cons_append, ← List.append_assoc] at proper ⊢
    have first : ClassifiesUnknown components event later := by
      refine ⟨classified.1, classified.2.1, ?_⟩
      intro next head
      cases later with
      | nil => cases head
      | cons _ _ => exact classified.2.2 next head
    obtain ⟨doomed, quiet⟩ := ih proper.of_append first
      fun member found => unmasked member (by simp [found])
    obtain ⟨begins, tells, step⟩ := (proper _ other [] rfl).doomed doomed (unmasked other (by simp))
    refine ⟨?_, ?_⟩
    · rcases step with held | ⟨fails, last, found, told⟩
      · exact doomed_snoc doomed held
      · -- the retry that the fault ended was closed right behind its error pass
        exfalso
        rcases List.eq_nil_or_concat later with rfl | ⟨front, previous, rfl⟩
        · have never := classified.2.2 other rfl
          rw [fails] at never
          cases never
        · rw [List.concat_eq_append, ← List.cons_append, ← List.append_assoc,
            List.getLast?_concat] at found
          cases found
          have silent := (quiet last (by simp)).2
          rw [told] at silent
          cases silent
    · intro last member
      rcases List.mem_append.mp member with before | same
      · exact quiet last before
      · rw [List.mem_singleton.mp same]
        exact ⟨begins, tells⟩

end Classified

section Report

/-- What a report says of the transactions behind it. -/
structure Settlement (components : Components) (inherited : SkipCounts) (trace : Trace I O)
    (report : Option ChunkExecutionReport) : Prop where
  counts : ∀ made, report = some made → Representable (receipts trace) →
    made.committedCounts = sumCounts (receipts trace) ∧
      made.committedChunks = (receipts trace).length
  skips : ∀ made, report = some made → made.skipCounts = sumSkips inherited (receipts trace)
  once : ∀ earlier attempt later, trace = earlier ++ ⟨.begin, .ok ()⟩ :: attempt ++ later →
    (∀ event ∈ attempt, event.begins = false) → attempt.countP Event.resolves ≤ 1
  beforeNext : ∀ earlier attempt next later,
    trace = earlier ++ ⟨.begin, .ok ()⟩ :: attempt ++ next :: later →
    (∀ event ∈ attempt, event.begins = false) → next.begins = true →
    attempt.countP Event.resolves = 1
  atLast : ∀ made, report = some made → ∀ earlier attempt,
    trace = earlier ++ ⟨.begin, .ok ()⟩ :: attempt →
    (∀ event ∈ attempt, event.begins = false) →
    attempt.countP Event.resolves = 1 ∨
      (attempt.countP Event.resolves = 0 ∧ made.outcome = .unknown)
  commitUnknown : ∀ earlier event later, trace = earlier ++ event :: later →
    event.commitUnknown = true → (∀ other ∈ later, other.begins = false) ∧
      ∀ made, report = some made → made.outcome = .unknown
  classifiedUnknown : ∀ earlier event later, trace = earlier ++ event :: later →
    ClassifiesUnknown components event later → (∀ other ∈ later, other.begins = false) ∧
      ∀ made, report = some made → made.outcome = .unknown

variable {limit : Nat} {components : Components} {inherited : SkipCounts}

theorem Finished.settles {exec : Exec I O} {report : Option ChunkExecutionReport}
    (finished : Finished limit components inherited report exec)
    (unmasked : ∀ event ∈ exec.trace, event.masksUnknown = false) :
    Settlement components inherited exec.trace report := by
  have proper := finished.underway.proper
  have ended : ∀ made, report = some made → Ended limit components inherited made exec := by
    rintro made rfl
    exact finished
  refine ⟨?_, ?_, ?_, ?_, ?_, ?_, ?_⟩
  · exact fun made same => (ended made same).tallied.counts
  · exact fun made same => (ended made same).tallied.skips
  · intro earlier attempt later split within
    rw [split] at proper
    rcases resolved_once proper.of_append within with ⟨_, unresolved⟩ | ⟨_, _, resolved⟩
    · omega
    · omega
  · intro earlier attempt next later split within begins
    have here := proper _ next later split
    rw [split] at proper
    rcases resolved_once proper.of_append within with ⟨opened, _⟩ | ⟨_, _, resolved⟩
    · obtain ⟨query, answer⟩ := next
      cases query with
      | begin =>
        have between := here.1
        rw [opened] at between
        simp at between
      | _ => cases begins
    · exact resolved
  · intro made same earlier attempt split within
    rw [split] at proper
    rcases resolved_once proper within with ⟨opened, unresolved⟩ | ⟨_, _, resolved⟩
    · refine .inr ⟨unresolved, (ended made same).left ?_⟩
      rw [split, opened]
      simp
    · exact .inl resolved
  · intro earlier event later split unknown
    rw [split] at proper
    obtain ⟨closed, begun⟩ := unknown_stays proper unknown
    refine ⟨begun, fun made same => (ended made same).left ?_⟩
    rw [split, closed]
    simp
  · intro earlier event later split classified
    rw [split] at proper
    obtain ⟨doomed, quiet⟩ := doomed_stays proper classified
      fun other member => unmasked other (by simp [split, member])
    refine ⟨fun other member => (quiet other member).1, fun made same => ?_⟩
    refine (ended made same).doomed ?_
    rw [split]
    exact doomed

/-- A run under any policy follows the protocol: without room for a skip a policy skips
nothing, so the larger of both totals is kept. -/
theorem run_under_finishes (env : Environment I O) (components : Components)
    {policy : Option (FaultPolicy × ChunkDeliveryMode)}
    (typed : ∀ installed ∈ policy, installed.1.skipLimit < u64Limit) {inherited : SkipCounts}
    (fits : inherited.total < u64Limit) (retries : RetryCounts)
    (noRollbacks fuel rounds : Nat) (checkpointDigest : Digest) :
    Finished (max inherited.total (policy.elim 0 (·.1.skipLimit))) (components.under policy)
      inherited
      (run env (components.under policy) fuel rounds checkpointDigest
        (.inheriting inherited retries noRollbacks)).1
      (run env (components.under policy) fuel rounds checkpointDigest
        (.inheriting inherited retries noRollbacks)).2 := by
  have lawful : Lawful (max inherited.total (policy.elim 0 (·.1.skipLimit)))
      (components.under policy) := by
    refine under_lawful components ?_ ?_
    · cases policy with
      | none => exact max_lt fits (by simp [u64Limit])
      | some installed => exact max_lt fits (typed installed rfl)
    · rintro installed rfl
      exact le_max_right _ _
  exact run_finishes env lawful (le_max_left _ _) retries noRollbacks fuel rounds checkpointDigest

/-- The report of a run is its committed work, and every transaction is resolved once, unless a
retry listener fails on the end of the retries of a unit whose last fault is an unknown
commit. -/
theorem run_settles (env : Environment I O) (components : Components)
    {policy : Option (FaultPolicy × ChunkDeliveryMode)}
    (typed : ∀ installed ∈ policy, installed.1.skipLimit < u64Limit) {inherited : SkipCounts}
    (fits : inherited.total < u64Limit) (retries : RetryCounts)
    (noRollbacks fuel rounds : Nat) (checkpointDigest : Digest)
    (unmasked : ∀ event ∈ (run env (components.under policy) fuel rounds checkpointDigest
      (.inheriting inherited retries noRollbacks)).2.trace, event.masksUnknown = false) :
    Settlement (components.under policy) inherited
      (run env (components.under policy) fuel rounds checkpointDigest
        (.inheriting inherited retries noRollbacks)).2.trace
      (run env (components.under policy) fuel rounds checkpointDigest
        (.inheriting inherited retries noRollbacks)).1 := by
  exact (run_under_finishes env components typed fits retries noRollbacks fuel rounds
    checkpointDigest).settles unmasked

end Report

section Masked

/-- One retry of a failed read, and no skip. -/
def rereadPolicy : FaultPolicy :=
  ⟨⟨⟨"r1", Eq.refl true⟩, [⟨.userComponent, .read, .retry⟩]⟩, 1, 16, 0, ⟨.none, 0, 1, 0⟩⟩

/-- A reader that fails, is retried, and then fails with an unknown commit. -/
def doubtfulReader (exhausted : List ItemListenerFailure) : Environment Nat Nat :=
  fun trace query =>
    match query with
    | .before (.beforeRetry _) => ⟨1, none⟩
    | .after (.retryExhausted _) _ => exhausted
    | .reservedOrdinal _ => if trace.any (·.query matches .reserve _) then some 1 else none
    | query => scripted
      (fun
        | 0 => .failed .new
        | _ => .failed (.withCategory .unknownCommit))
      (fun _ _ input => .completed (.item input)) trace query

def doubtfulRun (exhausted : List ItemListenerFailure) :
    Option ChunkExecutionReport × Exec Nat Nat :=
  run (doubtfulReader exhausted) (pairComponents.under (some (rereadPolicy, .atLeastOnce))) 5 5 []
    (.inheriting .zero .zero 0)

/-- An unknown commit that ends a retry is reported as the failure of the listener that was told
of it, with its transaction rolled back. -/
theorem exhausted_listener_masks_unknown :
    let failing := doubtfulRun [⟨.retryExhausted, 0, .error⟩]
    ¬ Settlement (pairComponents.under (some (rereadPolicy, .atLeastOnce))) .zero failing.2.trace
      failing.1 := by
  intro failing settlement
  have found : failing.2.trace[23]?.map Event.passesUnknown = some true := by decide +kernel
  obtain ⟨event, present, passes⟩ := Option.map_eq_some_iff.mp found
  have next : (failing.2.trace.drop 24).head?.map Event.failsRetry = some false := by
    decide +kernel
  obtain ⟨inside, rfl⟩ := List.getElem?_eq_some_iff.mp present
  have opened : failing.2.trace = failing.2.trace.take 23 ++
      failing.2.trace[23] :: failing.2.trace.drop 24 := by
    rw [List.getElem_cons_drop, List.take_append_drop]
  have outcome : failing.1.map (·.outcome) = some (.failed .itemListener) := by decide +kernel
  obtain ⟨report, made, same⟩ := Option.map_eq_some_iff.mp outcome
  have unknown := (settlement.classifiedUnknown _ _ _ opened ⟨rfl, passes, ?_⟩).2 report made
  · rw [same] at unknown
    cases unknown
  · intro first head
    rw [head] at next
    exact Option.some.inj next

/-- With the listener accepting it, the same run ends as unknown. -/
theorem doubtful_run_settles :
    Settlement (pairComponents.under (some (rereadPolicy, .atLeastOnce))) .zero
      (doubtfulRun []).2.trace (doubtfulRun []).1 ∧
    (doubtfulRun []).1.map (·.outcome) = some .unknown := by
  have ends : (doubtfulRun []).1.map (·.outcome) = some .unknown := by decide +kernel
  have unmasked : ∀ event ∈ (doubtfulRun []).2.trace, event.masksUnknown = false := by
    decide +kernel
  have typed : ∀ installed ∈ some (rereadPolicy, ChunkDeliveryMode.atLeastOnce),
      installed.1.skipLimit < u64Limit := by
    rintro installed ⟨⟩
    simp [rereadPolicy, u64Limit]
  have fits : SkipCounts.zero.total < u64Limit := by
    simp [SkipCounts.total, SkipCounts.zero, u64Limit]
  -- unfolded first, so that the run itself is not evaluated to compare it
  unfold doubtfulRun at unmasked ends ⊢
  exact ⟨run_settles (doubtfulReader []) pairComponents typed fits .zero 0 5 5 [] unmasked, ends⟩

end Masked

end OxideBatch.Chunk
