import OxideBatch.Chunk.Protocol

/-! The phases of an attempt against its protocol: they leave the transaction open, count
nothing, and keep the pending skips within the skip limit. -/

namespace OxideBatch.Chunk

open OxideBatch.Core OxideBatch.Lib Program

variable {I O : Type}

section Accounts

/-- The counts of receipts, added up. -/
def sumCounts (receipts : List Receipt) : ChunkCounts :=
  receipts.foldl (fun sum receipt => sum.plus receipt.counts) .zero

/-- Inherited skips and those of receipts, added up. -/
def sumSkips (inherited : SkipCounts) (receipts : List Receipt) : SkipCounts :=
  receipts.foldl (fun sum receipt => sum.plus receipt.skips) inherited

/-- The receipts stay within `u64`: the records they count and their number. -/
def Representable (receipts : List Receipt) : Prop :=
  (sumCounts receipts).read < u64Limit ∧ receipts.length < u64Limit

/-- The totals of a run are what its receipts add up to. -/
structure Tallied (inherited : SkipCounts) (receipts : List Receipt) (tally : Tally) : Prop where
  counts : Representable receipts →
    tally.counts = sumCounts receipts ∧ tally.chunks = receipts.length
  skips : tally.skips = sumSkips inherited receipts

/-- The skips of a chunk that no commit has made authoritative. -/
def pendingSkips (skips : List (PendingSkip O)) : SkipCounts :=
  skips.foldl (fun sum skip => sum.plus (.unit skip.phase)) .zero

/-- The committed and the pending skips together. -/
def skipsWithPending (exec : Exec I O) : SkipCounts :=
  exec.state.skipCounts.plus (pendingSkips exec.buffer.skips)

private theorem pendingSkips_snoc (skips : List (PendingSkip O)) (skip : PendingSkip O) :
    pendingSkips (skips ++ [skip]) = (pendingSkips skips).plus (.unit skip.phase) := by
  simp [pendingSkips]

private theorem plus_pendingSkips (base : SkipCounts) (skips : List (PendingSkip O)) :
    skips.foldl (fun sum skip => sum.plus (.unit skip.phase)) base =
      base.plus (pendingSkips skips) := by
  induction skips using List.reverseRecOn with
  | nil => rfl
  | append_singleton skips skip ih =>
    rw [List.foldl_append, ih, pendingSkips_snoc]
    exact SkipCounts.plus_assoc _ _ _

/-- A projection that does not overflow is the sum. -/
private theorem of_projectedSkips {base counts : SkipCounts} {skips : List (PendingSkip O)}
    (projected : projectedSkips base skips = some counts) :
    counts = base.plus (pendingSkips skips) := by
  rw [← plus_pendingSkips]
  unfold projectedSkips at projected
  induction skips generalizing base with
  | nil =>
    cases projected
    rfl
  | cons skip skips ih =>
    rw [List.foldlM_cons, Option.bind_eq_bind, Option.bind_eq_some_iff] at projected
    obtain ⟨next, incremented, rest⟩ := projected
    rw [List.foldl_cons, ← (SkipCounts.of_checkedIncrement incremented).1]
    exact ih rest

theorem of_acceptedFaultProgress {skips : List (PendingSkip O)} {progress : ChunkFaultProgress}
    (accepted : acceptedFaultProgress skips = some progress) :
    progress.skips = pendingSkips skips := by
  have folded : ∀ start : ChunkFaultProgress, skips.foldlM (fun progress skip => do
      let counts ← progress.skips.checkedIncrement skip.phase
      if skip.disposition = .commitSafeSkip then
        let noRollbacks ← checkedAdd progress.noRollbacks 1
        pure ⟨counts, noRollbacks⟩
      else pure ⟨counts, progress.noRollbacks⟩) start = some progress →
      progress.skips = skips.foldl (fun sum skip => sum.plus (.unit skip.phase)) start.skips := by
    intro start
    clear accepted
    induction skips generalizing start with
    | nil =>
      intro folded
      cases folded
      rfl
    | cons skip skips ih =>
      intro folded
      rw [List.foldlM_cons, Option.bind_eq_bind, Option.bind_eq_some_iff] at folded
      obtain ⟨next, one, rest⟩ := folded
      rw [List.foldl_cons, ih next rest]
      simp only [Option.bind_eq_bind, Option.bind_eq_some_iff] at one
      obtain ⟨counts, incremented, made⟩ := one
      have same : next.skips = counts := by
        split at made
        · simp only [Option.bind_eq_some_iff] at made
          obtain ⟨_, _, same⟩ := made
          cases same
          rfl
        · cases made
          rfl
      rw [same, (SkipCounts.of_checkedIncrement incremented).1]
  exact folded _ accepted

end Accounts

section Invariant

/-- What the fault policy of a step promises: no skip beyond the limit, and no decision but
one about a fault of an unknown commit. -/
structure Lawful (limit : Nat) (components : Components) : Prop where
  representable : limit < u64Limit
  skips : ∀ runtime fault evidence disposition, components.fault = some runtime →
    runtime.decide fault evidence = .skip disposition →
    ∃ next, fault.committedSkips.checkedIncrement fault.phase = some next ∧ next.total ≤ limit
  unknown : ∀ runtime fault evidence, components.fault = some runtime →
    fault.category = .unknownCommit → runtime.decide fault evidence = .unknown

/-- The trace follows the protocol and stands where it is said to. -/
structure Orderly (components : Components) (standing : Standing) (owes : Bool) (exec : Exec I O) :
    Prop where
  proper : Throughout (ProperAt components) exec.trace
  stands : standingOf exec.trace = standing
  owed : owesEnd exec.trace = owes
  valid : ∀ receipt ∈ receipts exec.trace, receipt.counts.Valid

/-- An orderly trace whose receipts are counted, with pending skips within the limit. -/
structure Steady (limit : Nat) (components : Components) (inherited : SkipCounts)
    (standing : Standing) (owes : Bool) (exec : Exec I O) : Prop
    extends Orderly components standing owes exec where
  budget : (skipsWithPending exec).total ≤ limit
  tallied : Tallied inherited (receipts exec.trace) exec.state.tally

/-- No fault was classified as unknown. -/
def Clear (components : Components) (exec : Exec I O) : Prop :=
  components.fault.isSome = true → unknownFault exec.trace = false

variable {limit : Nat} {components : Components} {inherited : SkipCounts} {standing : Standing}
  {owes : Bool}

/-- A fold over events that each leave the value alone. -/
theorem foldl_fixed {held : α} {step : α → Event I O → α} {events : List (Event I O)}
    (fixed : ∀ event ∈ events, step held event = held) : events.foldl step held = held := by
  induction events with
  | nil => rfl
  | cons event events ih =>
    rw [List.foldl_cons, fixed event List.mem_cons_self]
    exact ih fun later member => fixed later (List.mem_cons_of_mem _ member)

private theorem receipts_append_aside {trace : Trace I O} {events : List (Event I O)}
    (aside : ∀ event ∈ events, event.query.isAside = true) :
    receipts (trace ++ events) = receipts trace := by
  have empty : events.filterMap Event.receipt = [] :=
    List.filterMap_eq_nil_iff.mpr fun event member => receipt_aside (aside event member)
  rw [receipts, List.filterMap_append, empty, List.append_nil, receipts]

theorem Aside.receipts {before after : Exec I O} (aside : Aside before after) :
    receipts after.trace = receipts before.trace := by
  obtain ⟨events, trace, quiet⟩ := aside.events
  rw [trace, receipts_append_aside quiet]

theorem Clear.known {exec : Exec I O} (calm : Clear components exec) :
    ¬ Doomed components exec.trace := by
  rintro ⟨installed, unknown⟩
  rw [calm installed] at unknown
  cases unknown

/-- Aside calls are proper as long as no fault is classified as unknown. -/
private theorem proper_aside {trace : Trace I O} {events : List (Event I O)}
    (proper : Throughout (ProperAt components) trace) (known : ¬ Doomed components trace)
    (aside : ∀ event ∈ events, event.query.isAside = true) :
    Throughout (ProperAt components) (trace ++ events) := by
  refine @Throughout.extend _ _ (fun before => ¬ Doomed components before) _ _ proper known ?_
  intro before event member known
  refine ⟨properAt_aside (aside event member) known, ?_⟩
  rintro ⟨installed, unknown⟩
  have held : unknownFault before = false := by
    rw [Bool.eq_false_iff]
    exact fun unknown => known ⟨installed, unknown⟩
  rw [unknownFault_snoc, held, unknownStep_aside (aside event member)] at unknown
  cases unknown

theorem Orderly.aside {before after : Exec I O} (orderly : Orderly components standing owes before)
    (calm : Clear components before) (aside : Aside before after) :
    Orderly components standing owes after := by
  obtain ⟨events, trace, quiet⟩ := aside.events
  refine ⟨?_, ?_, ?_, ?_⟩
  · rw [trace]
    exact proper_aside orderly.proper calm.known quiet
  · rw [trace, standingOf, List.foldl_append]
    have same := foldl_fixed fun event member =>
      standingStep_aside (quiet event member) (standingOf before.trace)
    exact same.trans orderly.stands
  · rw [trace, owesEnd, List.foldl_append]
    have same := foldl_fixed fun event member =>
      owesStep_aside (quiet event member) (owesEnd before.trace)
    exact same.trans orderly.owed
  · rw [aside.receipts]
    exact orderly.valid

theorem Aside.skipsWithPending {before after : Exec I O} (aside : Aside before after) :
    skipsWithPending after = skipsWithPending before := by
  have same : after.state.skipCounts = before.state.skipCounts := congrArg Tally.skips aside.tally
  rw [Chunk.skipsWithPending, same, aside.skips, Chunk.skipsWithPending]

theorem Steady.aside {before after : Exec I O}
    (steady : Steady limit components inherited standing owes before)
    (calm : Clear components before) (aside : Aside before after) :
    Steady limit components inherited standing owes after := by
  refine ⟨steady.toOrderly.aside calm aside, ?_, ?_⟩
  · rw [aside.skipsWithPending]
    exact steady.budget
  · rw [aside.receipts, aside.tally]
    exact steady.tallied

theorem Aside.unknownFault {before after : Exec I O} (aside : Aside before after)
    (held : unknownFault before.trace = false) : unknownFault after.trace = false := by
  obtain ⟨events, trace, quiet⟩ := aside.events
  have same : before.trace.foldl unknownStep false = false := held
  rw [trace, Chunk.unknownFault, List.foldl_append, same]
  exact foldl_fixed fun event member => unknownStep_aside (quiet event member)

theorem Clear.aside {before after : Exec I O} (calm : Clear components before)
    (aside : Aside before after) : Clear components after :=
  fun installed => aside.unknownFault (calm installed)

/-- A steady run in which no fault was classified as unknown. -/
def Assured (limit : Nat) (components : Components) (inherited : SkipCounts) (standing : Standing)
    (owes : Bool) (exec : Exec I O) : Prop :=
  Steady limit components inherited standing owes exec ∧ Clear components exec

theorem Assured.aside {before after : Exec I O}
    (assured : Assured limit components inherited standing owes before)
    (aside : Aside before after) : Assured limit components inherited standing owes after :=
  ⟨assured.1.aside assured.2 aside, assured.2.aside aside⟩

theorem assured_keeps {program : ChunkM I O α} (aside : Along Aside program) :
    Ensures (Assured limit components inherited standing owes) program
      (fun _ => Assured limit components inherited standing owes) :=
  aside.ensures Assured.aside

/-- A pass over listeners leaves an attempt where it stands. -/
theorem Steady.tell {exec : Exec I O}
    (steady : Steady limit components inherited standing owes exec) (pass : ItemPass I O)
    (heard : Doomed components exec.trace → Heard exec.trace pass) (entered : Nat)
    (answer : List ItemListenerFailure) :
    Steady limit components inherited standing owes
      { exec with trace := exec.trace ++ [⟨.after pass entered, answer⟩] } := by
  have unpaid : receipts (exec.trace ++ [⟨.after pass entered, answer⟩]) = receipts exec.trace :=
    (receipts_snoc _ _).trans (List.append_nil _)
  refine ⟨⟨steady.proper.snoc heard, ?_, ?_, ?_⟩, steady.budget, ?_⟩
  · exact (standingOf_snoc _ _).trans steady.stands
  · exact (owesEnd_snoc _ _).trans steady.owed
  · rw [unpaid]
    exact steady.valid
  · rw [unpaid]
    exact steady.tallied

end Invariant

section Classification

variable (env : Environment I O) {limit : Nat} {components : Components} {inherited : SkipCounts}
  {standing : Standing} {owes : Bool}

/-- A fault of the phase, described with the skips there are. -/
structure Describes (phase : FaultPhase) (fault : FaultDescriptor) (exec : Exec I O) : Prop where
  phase : fault.phase = phase
  skips : fault.committedSkips = skipsWithPending exec

private theorem descriptor_describes (phase : FaultPhase) (category : FailureCategory) :
    Ensures (fun _ => True) (descriptor components phase category : ChunkM I O _)
      (fun found exec => ∀ fault, found = some fault → Describes phase fault exec) := by
  have reading : Ensures (fun _ : Exec I O => True) getState (fun state exec =>
      state = exec.state) := fun _ _ => rfl
  refine Ensures.bind reading fun state => Ensures.bind getBuffer_ensures fun buffer => ?_
  cases projected : projectedSkips state.skipCounts buffer.skips with
  | none => exact Ensures.pure fun _ _ => by simp
  | some committed =>
    have described : Ensures (fun exec : Exec I O => buffer = exec.buffer ∧ state = exec.state)
        (modifyState fun state => { state with nextFailureId := saturatingAdd state.nextFailureId 1 })
        (fun _ exec => committed = skipsWithPending exec) := by
      rintro exec ⟨rfl, rfl⟩
      exact of_projectedSkips projected
    refine Ensures.bind described fun _ => ?_
    have kept : Ensures (fun exec : Exec I O => committed = skipsWithPending exec) getState
        (fun _ exec => committed = skipsWithPending exec) := fun _ holds => holds
    refine Ensures.bind kept fun later => ?_
    dsimp only
    split
    · exact Ensures.pure fun _ _ => by simp
    · refine Ensures.pure fun exec same fault made => ?_
      cases made
      exact ⟨rfl, same⟩

/-- A steady run that is to decide on a described fault. -/
structure Deciding (limit : Nat) (components : Components) (inherited : SkipCounts)
    (standing : Standing) (owes : Bool) (phase : FaultPhase) (fault : FaultDescriptor)
    (exec : Exec I O) : Prop extends Steady limit components inherited standing owes exec where
  describes : Describes phase fault exec
  flag : unknownFault exec.trace = decide (fault.category = .unknownCommit)

theorem Deciding.emit {phase : FaultPhase} {fault : FaultDescriptor} {exec : Exec I O}
    (deciding : Deciding limit components inherited standing owes phase fault exec)
    (event : FaultRuntimeEvent) :
    Deciding limit components inherited standing owes phase fault
      (emit env (.fault event) exec).2 := by
  have unpaid : receipts (exec.trace ++ [⟨.emit (.fault event), env exec.trace _⟩]) =
      receipts exec.trace := (receipts_snoc _ _).trans (List.append_nil _)
  refine ⟨⟨⟨deciding.proper.snoc trivial, ?_, ?_, ?_⟩, deciding.budget, ?_⟩,
    ⟨deciding.describes.phase, deciding.describes.skips⟩, ?_⟩
  · exact (standingOf_snoc _ _).trans deciding.stands
  · exact (owesEnd_snoc _ _).trans deciding.owed
  · exact fun receipt member => deciding.valid receipt (unpaid ▸ member)
  · exact Eq.mpr (congrArg (Tallied inherited · exec.state.tally) unpaid) deciding.tallied
  · exact (unknownFault_snoc _ _).trans deciding.flag

/-- What a listener pass leaves of a fault: a failure ends it. -/
def Heeded (limit : Nat) (components : Components) (inherited : SkipCounts) (standing : Standing)
    (owes : Bool) (phase : FaultPhase) (fault : FaultDescriptor)
    (answer : Option ChunkExecutionOutcome) (exec : Exec I O) : Prop :=
  match answer with
  | none => Deciding limit components inherited standing owes phase fault exec
  | some outcome => outcome ≠ .unknown ∧ Assured limit components inherited standing owes exec

/-- What the failures of a pass leave. -/
def Told (limit : Nat) (components : Components) (inherited : SkipCounts) (standing : Standing)
    (owes : Bool) (phase : FaultPhase) (fault : FaultDescriptor)
    (failures : List ItemListenerFailure) : Exec I O → Prop :=
  match failures with
  | [] => Deciding limit components inherited standing owes phase fault
  | _ :: _ => Assured limit components inherited standing owes

section Passes

variable {phase : FaultPhase} {fault : FaultDescriptor}

private theorem unknownFault_failed (trace : Trace I O) (pass : ItemPass I O) (entered : Nat)
    (first : ItemListenerFailure) (rest : List ItemListenerFailure) :
    unknownFault (trace ++ [⟨.after pass entered, first :: rest⟩]) = false := by
  rw [unknownFault_snoc]
  rfl

/-- A pass behind an error pass: the fault is still to be decided on, or listeners failed. -/
private theorem ask_told {pass : ItemPass I O} (success : pass.fault? = none) (entered : Nat) :
    Ensures (fun exec => Deciding limit components inherited standing owes phase fault exec ∧
        (Doomed components exec.trace → Heard exec.trace pass))
      (ask env (.after pass entered))
      (Told limit components inherited standing owes phase fault) := by
  rintro exec ⟨deciding, heard⟩
  change Told limit components inherited standing owes phase fault
    (env exec.trace (.after pass entered))
    { exec with trace := exec.trace ++ [⟨.after pass entered,
      env exec.trace (.after pass entered)⟩] }
  generalize env exec.trace (.after pass entered) = answer
  cases answer with
  | nil =>
    refine ⟨deciding.toSteady.tell pass heard entered [],
      ⟨deciding.describes.phase, deciding.describes.skips⟩, ?_⟩
    rw [unknownFault_snoc, deciding.flag]
    simp [unknownStep, success]
  | cons first rest =>
    exact ⟨deciding.toSteady.tell pass heard entered _, fun _ => unknownFault_failed _ _ _ _ _⟩

private theorem recordPass_heeded (failures : List ItemListenerFailure) :
    Ensures (Told limit components inherited standing owes phase fault failures : Exec I O → Prop)
      (recordPass failures) (Heeded limit components inherited standing owes phase fault) := by
  cases failures with
  | nil => exact Ensures.pure fun _ deciding => deciding
  | cons first rest =>
    have recording : Ensures (Assured limit components inherited standing owes)
        (modifyState fun state =>
          { state with itemListenerFailures := state.itemListenerFailures ++ first :: rest } :
          ChunkM I O Unit) (fun _ => Assured limit components inherited standing owes) :=
      assured_keeps (mild_aside.modifyState fun _ => rfl)
    refine Ensures.bind recording fun _ => ?_
    refine Ensures.pure fun _ assured => ⟨?_, assured⟩
    cases first.kind <;> simp [itemListenerOutcome]

/-- Recording the failures of a pass makes no call. -/
private theorem recordPass_silent (failures : List ItemListenerFailure) (held : Trace I O → Prop) :
    Ensures (fun exec : Exec I O => held exec.trace) (recordPass failures)
      (fun _ exec => held exec.trace) := by
  cases failures with
  | nil => exact Ensures.pure fun _ holds => holds
  | cons first rest => exact fun _ holds => holds

/-- The end of the retry a fault fails. -/
private theorem completeRetry_heeded (key : Digest) (outcome : RetryOutcome) :
    Ensures (fun exec => Deciding limit components inherited standing owes phase fault exec ∧
        ∃ event ∈ exec.trace.getLast?, event.tellsFault = true)
      (completeRetry env key outcome)
      (Heeded limit components inherited standing owes phase fault) := by
  refine Ensures.bind getBuffer_ensures fun buffer => ?_
  split
  · exact Ensures.pure fun _ holds => holds.2.1
  · split
    · rename_i pending _ _
      have emptied : Ensures (fun exec : Exec I O => buffer = exec.buffer ∧
            Deciding limit components inherited standing owes phase fault exec ∧
              ∃ event ∈ exec.trace.getLast?, event.tellsFault = true)
          (modifyBuffer fun buffer => { buffer with retry := none })
          (fun _ exec => Deciding limit components inherited standing owes phase fault exec ∧
            (Doomed components exec.trace →
              Heard exec.trace (.afterRetry pending.fault outcome))) := by
        rintro exec ⟨_, deciding, last⟩
        exact ⟨⟨⟨⟨deciding.proper, deciding.stands, deciding.owed, deciding.valid⟩,
          deciding.budget, deciding.tallied⟩,
          ⟨deciding.describes.phase, deciding.describes.skips⟩, deciding.flag⟩, fun _ => last⟩
      refine Ensures.bind emptied fun _ => ?_
      exact Ensures.bind (ask_told env rfl _) fun failures => recordPass_heeded failures
    · exact Ensures.pure fun _ holds => holds.2.1

end Passes

/-- What was decided about a fault: without a policy, to fail. -/
def Decided (components : Components) (fault : FaultDescriptor) (evidence : FaultEvidence)
    (decision : FaultDecision) : Prop :=
  match components.fault with
  | none => decision = .failAndRollback
  | some runtime => decision = runtime.decide fault evidence

private theorem classify_deciding (key : Digest) {phase : FaultPhase} (fault : FaultDescriptor)
    (evidence : FaultEvidence) (sequence : Nat) :
    Ensures (fun exec => Deciding limit components inherited standing owes phase fault exec ∧
        ∃ event ∈ exec.trace.getLast?, event.tellsFault = true)
      (classify env components key fault evidence sequence)
      (fun answer exec =>
        match answer with
        | .error outcome => outcome ≠ .unknown ∧
            Assured limit components inherited standing owes exec
        | .ok decision => Deciding limit components inherited standing owes phase fault exec ∧
            Decided components fault evidence decision) := by
  refine Ensures.bind getBuffer_ensures fun buffer => ?_
  have closing : ∀ entered : Option Nat, Ensures (fun exec => buffer = exec.buffer ∧
        Deciding limit components inherited standing owes phase fault exec ∧
          ∃ event ∈ exec.trace.getLast?, event.tellsFault = true)
      (if entered.isSome then completeRetry env key .failed else pure none)
      (Heeded limit components inherited standing owes phase fault) := by
    intro entered
    split
    · exact (completeRetry_heeded env key .failed).weaken (fun _ holds => holds.2)
        fun _ _ heeded => heeded
    · exact Ensures.pure fun _ holds => holds.2.1
  refine Ensures.bind (closing _) fun ended => ?_
  cases ended with
  | some outcome => exact Ensures.pure fun _ heeded => heeded
  | none =>
    dsimp only
    cases installed : components.fault with
    | none => exact Ensures.pure fun _ deciding => ⟨deciding, by simp [Decided, installed]⟩
    | some runtime =>
      have decided : Decided components fault evidence (runtime.decide fault evidence) := by
        simp [Decided, installed]
      dsimp only
      split
      · have telling : Ensures (Deciding limit components inherited standing owes phase fault)
            (emit env (.fault
              { kind := .retryExhausted, sequence, phase := fault.phase,
                summary := some fault.summary, ordinal := some fault.retryOrdinal }))
            (fun _ exec => Deciding limit components inherited standing owes phase fault exec ∧
              (Doomed components exec.trace → Heard exec.trace (.retryExhausted fault))) := by
          intro exec deciding
          have held := deciding.emit env
            { kind := .retryExhausted, sequence, phase := fault.phase,
              summary := some fault.summary, ordinal := some fault.retryOrdinal }
          refine ⟨held, fun doomed => ?_⟩
          change fault.category = .unknownCommit
          exact of_decide_eq_true (held.flag.symm.trans doomed.2)
        refine Ensures.bind telling fun _ => ?_
        refine Ensures.bind (ask_told env rfl _) fun failures => ?_
        refine Ensures.bind (recordPass_heeded failures) fun failed => ?_
        cases failed with
        | none => exact Ensures.pure fun _ deciding => ⟨deciding, decided⟩
        | some outcome => exact Ensures.pure fun _ heeded => heeded
      · exact Ensures.pure fun _ deciding => ⟨deciding, decided⟩

/-- What the classification of a fault leaves: a terminal outcome that is not unknown, or a
decision; only an unknown one dooms the attempt, a retry needs a policy, and a skip has
room within the limit. -/
def Classified (limit : Nat) (components : Components) (inherited : SkipCounts)
    (standing : Standing) (owes : Bool) (phase : FaultPhase)
    (answer : Except ChunkExecutionOutcome (FaultDescriptor × FaultDecision)) (exec : Exec I O) :
    Prop :=
  Steady limit components inherited standing owes exec ∧
    match answer with
    | .error outcome => outcome ≠ .unknown ∧ Clear components exec
    | .ok (_, decision) => (decision ≠ .unknown → Clear components exec) ∧
        (∀ ordinal delay, decision = .retry ordinal delay → components.fault.isSome = true) ∧
        (∀ disposition, decision = .skip disposition →
          ((skipsWithPending exec).plus (.unit phase)).total ≤ limit)

/-- What is decided about a described fault. -/
theorem Decided.leaves {phase : FaultPhase} {fault : FaultDescriptor} {evidence : FaultEvidence}
    {decision : FaultDecision} {exec : Exec I O} (lawful : Lawful limit components)
    (decided : Decided components fault evidence decision) (describes : Describes phase fault exec)
    (flag : unknownFault exec.trace = decide (fault.category = .unknownCommit)) :
    (decision ≠ .unknown → Clear components exec) ∧
      (∀ ordinal delay, decision = .retry ordinal delay → components.fault.isSome = true) ∧
      (∀ disposition, decision = .skip disposition →
        ((skipsWithPending exec).plus (.unit phase)).total ≤ limit) := by
  cases installed : components.fault with
  | none =>
    have failing : decision = .failAndRollback := by simpa [Decided, installed] using decided
    subst failing
    refine ⟨?_, ?_, ?_⟩
    · intro _ some
      rw [installed] at some
      cases some
    · intro ordinal delay same
      cases same
    · intro disposition same
      cases same
  | some runtime =>
    have same : decision = runtime.decide fault evidence := by
      simpa [Decided, installed] using decided
    refine ⟨?_, fun _ _ _ => rfl, ?_⟩
    · intro known _
      rw [flag, decide_eq_false_iff_not]
      intro unknown
      exact known (same.trans (lawful.unknown runtime fault evidence installed unknown))
    · intro disposition skipped
      obtain ⟨next, incremented, within⟩ :=
        lawful.skips runtime fault evidence disposition installed (same.symm.trans skipped)
      have sum := (SkipCounts.of_checkedIncrement incremented).1
      rw [describes.skips, describes.phase] at sum
      rw [← sum]
      exact within

private theorem withReservedOrdinal_keeps (phase : FaultPhase) (key : Digest)
    (fault : FaultDescriptor) :
    Ensures (Describes phase fault) (withReservedOrdinal env components key fault)
      (fun fault' => Describes phase fault') := by
  intro exec describes
  unfold withReservedOrdinal
  cases components.fault with
  | none => exact describes
  | some runtime => exact ⟨describes.phase, describes.skips⟩

/-- An error pass decides whether an unknown fault is held. -/
private theorem ask_error {phase : FaultPhase} {fault : FaultDescriptor} {pass : ItemPass I O}
    (tells : pass.fault? = some fault) (entered : Nat) :
    Ensures (fun exec => Assured limit components inherited standing owes exec ∧
        Describes phase fault exec)
      (ask env (.after pass entered))
      (fun failures exec => (∃ event ∈ exec.trace.getLast?, event.tellsFault = true) ∧
        Told limit components inherited standing owes phase fault failures exec) := by
  rintro exec ⟨⟨steady, calm⟩, describes⟩
  change (∃ event ∈ (exec.trace ++ [(⟨.after pass entered,
      env exec.trace (.after pass entered)⟩ : Event I O)]).getLast?, event.tellsFault = true) ∧
    Told limit components inherited standing owes phase fault
      (env exec.trace (.after pass entered))
      { exec with trace := exec.trace ++ [⟨.after pass entered,
        env exec.trace (.after pass entered)⟩] }
  generalize env exec.trace (.after pass entered) = answer
  refine ⟨⟨⟨.after pass entered, answer⟩, ?_, ItemPass.isError_of_fault tells⟩, ?_⟩
  · exact List.getLast?_concat
  · have told := steady.tell pass (fun doomed => absurd doomed calm.known) entered answer
    cases answer with
    | nil =>
      refine ⟨told, ⟨describes.phase, describes.skips⟩, ?_⟩
      rw [unknownFault_snoc]
      simp [unknownStep, tells]
    | cons first rest => exact ⟨told, fun _ => unknownFault_failed _ _ _ _ _⟩

private theorem classifyFault_classified (lawful : Lawful limit components) (phase : FaultPhase)
    (category : FailureCategory) (key : Digest) {pass : FaultDescriptor → ItemPass I O}
    (tells : ∀ fault, (pass fault).fault? = some fault) (entered : Nat) (evidence : FaultEvidence)
    (sequence : Nat) :
    Ensures (Assured limit components inherited standing owes)
      (classifyFault env components phase category key pass entered evidence sequence)
      (Classified limit components inherited standing owes phase) := by
  have describing : Ensures (Assured limit components inherited standing owes)
      (descriptor components phase category : ChunkM I O _) (fun found exec =>
        Assured limit components inherited standing owes exec ∧
          ∀ fault, found = some fault → Describes phase fault exec) := by
    intro exec assured
    exact ⟨assured.aside (mild_aside.descriptor components phase category exec),
      descriptor_describes phase category exec trivial⟩
  refine Ensures.bind describing fun found => ?_
  cases found with
  | none => exact Ensures.pure fun _ holds => ⟨holds.1.1, by simp, holds.1.2⟩
  | some made =>
    have reserving : Ensures (fun exec =>
          Assured limit components inherited standing owes exec ∧
            ∀ fault, some made = some fault → Describes phase fault exec)
        (withReservedOrdinal env components key made) (fun fault exec =>
          Assured limit components inherited standing owes exec ∧ Describes phase fault exec) := by
      rintro exec ⟨assured, described⟩
      exact ⟨assured.aside (mild_aside.withReservedOrdinal env components key made exec),
        withReservedOrdinal_keeps env phase key made exec (described made rfl)⟩
    refine Ensures.bind reserving fun fault => ?_
    refine Ensures.bind (ask_error env (tells fault) entered) fun failures => ?_
    have recording := (recordPass_heeded failures : Ensures _ (recordPass failures : ChunkM I O _)
      (Heeded limit components inherited standing owes phase fault)).and
        (recordPass_silent failures fun trace => ∃ event ∈ trace.getLast?, event.tellsFault = true)
    refine Ensures.bind (recording.weaken (fun _ holds => ⟨holds.2, holds.1⟩)
      fun _ _ holds => holds) fun failed => ?_
    cases failed with
    | some outcome =>
      exact Ensures.pure fun _ holds => ⟨holds.1.2.1, holds.1.1, holds.1.2.2⟩
    | none =>
      refine Ensures.bind (classify_deciding env key fault evidence sequence) fun answer => ?_
      cases answer with
      | error outcome =>
        exact Ensures.pure fun _ holds => ⟨holds.2.1, holds.1, holds.2.2⟩
      | ok decision =>
        exact Ensures.pure fun _ holds =>
          ⟨holds.1.toSteady, holds.2.leaves lawful holds.1.describes holds.1.flag⟩

end Classification

section Phases

variable (env : Environment I O) {limit : Nat} {components : Components} {inherited : SkipCounts}
  {standing : Standing} {owes : Bool}

/-- What a verdict leaves: only an unknown one dooms the attempt, and a retry needs a
policy. -/
def Verdict.Conducts (limit : Nat) (components : Components) (inherited : SkipCounts)
    (standing : Standing) (owes : Bool) (verdict : Verdict) (exec : Exec I O) : Prop :=
  Steady limit components inherited standing owes exec ∧
    (verdict ≠ .terminal .unknown → Clear components exec) ∧
    (∀ request, verdict = .retry request → components.fault.isSome = true)

theorem Assured.terminal {exec : Exec I O} {outcome : ChunkExecutionOutcome}
    (assured : Assured limit components inherited standing owes exec) :
    (Verdict.terminal outcome).Conducts limit components inherited standing owes exec :=
  ⟨assured.1, fun _ => assured.2, by simp⟩

theorem Assured.conducts {exec : Exec I O} {verdict : Verdict}
    (assured : Assured limit components inherited standing owes exec)
    (other : ∀ request, verdict ≠ .retry request) :
    verdict.Conducts limit components inherited standing owes exec :=
  ⟨assured.1, fun _ => assured.2, fun request same => absurd same (other request)⟩

theorem Verdict.Conducts.assured {exec : Exec I O} {verdict : Verdict}
    (conducts : verdict.Conducts limit components inherited standing owes exec)
    (known : verdict ≠ .terminal .unknown) :
    Assured limit components inherited standing owes exec :=
  ⟨conducts.1, conducts.2.1 known⟩

/-- The protocol between the calls of an attempt. -/
def conductedPhases (limit : Nat) (components : Components) (inherited : SkipCounts)
    (standing : Standing) (owes : Bool) : PhaseRule I O where
  kept := Assured limit components inherited standing owes
  leaves verdict := verdict.Conducts limit components inherited standing owes
  ready _ := Verdict.commit.Conducts limit components inherited standing owes
  step := Aside
  settling := mild_aside
  keeps _ _ assured aside := assured.aside aside
  goesOn _ := ⟨fun conducts => conducts.assured (by simp), fun assured => assured.conducts (by simp)⟩
  ends _ _ assured := assured.terminal

abbrev UnitConducts (limit : Nat) (components : Components) (inherited : SkipCounts)
    (standing : Standing) (owes : Bool) : Option Verdict → Exec I O → Prop :=
  (conductedPhases limit components inherited standing owes).unit

theorem aside_modifyBuffer {change : ChunkBuffer I O → ChunkBuffer I O}
    (same : ∀ buffer, (change buffer).skips = buffer.skips) : Along Aside (modifyBuffer change) :=
  fun exec => ⟨(Aside.refl exec).events, rfl, same exec.buffer⟩

/-- A further skip of the phase has room within the limit. -/
def Roomy (limit : Nat) (components : Components) (inherited : SkipCounts) (standing : Standing)
    (owes : Bool) (phase : FaultPhase) (exec : Exec I O) : Prop :=
  Assured limit components inherited standing owes exec ∧
    ((skipsWithPending exec).plus (.unit phase)).total ≤ limit

private theorem roomy_keeps {phase : FaultPhase} {program : ChunkM I O α}
    (aside : Along Aside program) :
    Ensures (Roomy limit components inherited standing owes phase) program
      (fun _ => Roomy limit components inherited standing owes phase) := by
  rintro exec ⟨assured, room⟩
  refine ⟨assured.aside (aside exec), ?_⟩
  rw [(aside exec).skipsWithPending]
  exact room

theorem Roomy.push (skip : PendingSkip O) {exec : Exec I O} {buffer : ChunkBuffer I O}
    (roomy : Roomy limit components inherited standing owes skip.phase exec)
    (pushed : buffer.skips = exec.buffer.skips ++ [skip]) :
    Assured limit components inherited standing owes { exec with buffer := buffer } := by
  have sum : skipsWithPending { exec with buffer := buffer } =
      (skipsWithPending exec).plus (.unit skip.phase) := by
    change exec.state.skipCounts.plus (pendingSkips buffer.skips) = _
    rw [pushed, pendingSkips_snoc, ← SkipCounts.plus_assoc]
    rfl
  obtain ⟨⟨steady, calm⟩, room⟩ := roomy
  refine ⟨⟨⟨steady.proper, steady.stands, steady.owed, steady.valid⟩, ?_, steady.tallied⟩, calm⟩
  rw [sum]
  exact room

/-- A classified skip has room. -/
theorem Classified.roomy {phase : FaultPhase} {fault : FaultDescriptor}
    {disposition : RollbackDisposition} {exec : Exec I O}
    (classified : Classified limit components inherited standing owes phase
      (.ok (fault, .skip disposition)) exec) :
    Roomy limit components inherited standing owes phase exec :=
  ⟨⟨classified.1, classified.2.1 (by simp)⟩, classified.2.2.2 disposition rfl⟩

private theorem readFault_conducts (lawful : Lawful limit components) (sequence : Nat)
    (key : Digest)
    (entered : Nat) (invoked : Invoked (ReadOutcome I) ReaderError) :
    Ensures (Assured limit components inherited standing owes)
      (readFault env components sequence key entered invoked)
      (UnitConducts limit components inherited standing owes) := by
  refine Ensures.bind (classifyFault_classified env lawful _ _ _ (fun _ => rfl) _ _ _)
    fun answer => ?_
  cases answer with
  | error outcome => exact Ensures.pure fun _ holds => Assured.terminal ⟨holds.1, holds.2.2⟩
  | ok classified =>
    obtain ⟨fault, decision⟩ := classified
    cases decision with
    | retry ordinal delay =>
      exact Ensures.pure fun _ holds => ⟨holds.1, fun _ => holds.2.1 (by simp),
        fun _ _ => holds.2.2.1 ordinal delay rfl⟩
    | skip disposition =>
      refine Ensures.bind (Ensures.weaken (roomy_keeps (mild_aside.resolveKey env components key))
        (fun _ holds => Classified.roomy holds) fun _ _ holds => holds) fun _ => ?_
      refine Ensures.bind (modifyBuffer_ensures fun exec roomy =>
        Roomy.push ⟨.read, fault, disposition, none, none⟩ roomy rfl) fun _ => ?_
      refine Ensures.pure fun _ assured => ?_
      split
      · exact assured.conducts (by simp)
      · exact assured
    | failAndRollback =>
      exact Ensures.pure fun _ holds => Assured.terminal ⟨holds.1, holds.2.1 (by simp)⟩
    | unknown =>
      exact Ensures.pure fun _ holds => ⟨holds.1, fun other => absurd rfl other, by simp⟩
    | stop => exact Ensures.pure fun _ holds => Assured.terminal ⟨holds.1, holds.2.1 (by simp)⟩

private theorem readPhase_conducts (lawful : Lawful limit components) (sequence fuel : Nat) :
    Ensures (Assured limit components inherited standing owes)
      (readPhase env components sequence fuel)
      (UnitConducts limit components inherited standing owes) := by
  refine (conductedPhases limit components inherited standing owes).readPhase env ?_ fuel
  refine (conductedPhases limit components inherited standing owes).readOne env
    (fun _ => Assured limit components inherited standing owes) (fun exec call answer assured => ?_)
    (fun exec buffer same assured => assured.aside ⟨(Aside.refl exec).events, rfl, same⟩)
    fun _ _ _ => readFault_conducts env lawful _ _ _ _
  have after := assured.aside (⟨⟨[⟨.read call, answer⟩], rfl, by simp [Query.isAside]⟩, rfl, rfl⟩ :
    Aside exec { exec with trace := exec.trace ++ [⟨.read call, answer⟩] })
  cases answer <;> exact after

private theorem processFault_conducts (lawful : Lawful limit components) (sequence index : Nat)
    (item : I)
    (key : Digest) (entered : Nat) (invoked : Invoked (ProcessOutcome O) ProcessorError) :
    Ensures (Assured limit components inherited standing owes)
      (processFault env components sequence index item key entered invoked)
      (UnitConducts limit components inherited standing owes) := by
  refine Ensures.bind (classifyFault_classified env lawful _ _ _ (fun _ => rfl) _ _ _)
    fun answer => ?_
  cases answer with
  | error outcome => exact Ensures.pure fun _ holds => Assured.terminal ⟨holds.1, holds.2.2⟩
  | ok classified =>
    obtain ⟨fault, decision⟩ := classified
    cases decision with
    | retry ordinal delay =>
      exact Ensures.pure fun _ holds => ⟨holds.1, fun _ => holds.2.1 (by simp),
        fun _ _ => holds.2.2.1 ordinal delay rfl⟩
    | skip disposition =>
      refine Ensures.bind (Ensures.weaken (roomy_keeps (mild_aside.resolveKey env components key))
        (fun _ holds => Classified.roomy holds) fun _ _ holds => holds) fun _ => ?_
      refine Ensures.bind (modifyBuffer_ensures fun exec roomy =>
        Roomy.push ⟨.process, fault, disposition, some index, none⟩ roomy rfl) fun _ => ?_
      refine Ensures.pure fun _ assured => ?_
      split
      · exact assured.conducts (by simp)
      · exact assured
    | failAndRollback =>
      exact Ensures.pure fun _ holds => Assured.terminal ⟨holds.1, holds.2.1 (by simp)⟩
    | unknown =>
      exact Ensures.pure fun _ holds => ⟨holds.1, fun other => absurd rfl other, by simp⟩
    | stop => exact Ensures.pure fun _ holds => Assured.terminal ⟨holds.1, holds.2.1 (by simp)⟩

private theorem processPhase_conducts (lawful : Lawful limit components) (sequence : Nat) :
    Ensures (Assured limit components inherited standing owes)
      (processPhase env components sequence)
      (fun result => result.1.Conducts limit components inherited standing owes) := by
  refine (conductedPhases limit components inherited standing owes).processPhase env
    fun index slot outputs => ?_
  refine Ensures.weaken ?_ (fun _ holds => holds.1) fun _ _ conducts => conducts
  exact (conductedPhases limit components inherited standing owes).processOne env
    (assured_keeps (aside_ask env rfl)) fun _ _ _ => processFault_conducts env lawful _ _ _ _ _ _

private theorem writeFault_conducts (lawful : Lawful limit components) (sequence : Nat)
    (outputs : AttemptOutputs O) (key : Digest) (entered : Nat)
    (invoked : Invoked WriteOutcome WriterError) :
    Ensures (Assured limit components inherited standing owes)
      (writeFault env components sequence outputs key entered invoked)
      (fun verdict => verdict.Conducts limit components inherited standing owes) := by
  refine Ensures.bind (classifyFault_classified env lawful _ _ _ (fun _ => rfl) _ _ _)
    fun answer => ?_
  cases answer with
  | error outcome => exact Ensures.pure fun _ holds => Assured.terminal ⟨holds.1, holds.2.2⟩
  | ok classified =>
    obtain ⟨fault, decision⟩ := classified
    cases decision with
    | retry ordinal delay =>
      exact Ensures.pure fun _ holds => ⟨holds.1, fun _ => holds.2.1 (by simp),
        fun _ _ => holds.2.2.1 ordinal delay rfl⟩
    | skip disposition =>
      dsimp only
      split
      · exact Ensures.pure fun _ holds => Assured.terminal ⟨holds.1, holds.2.1 (by simp)⟩
      · refine Ensures.bind (Ensures.weaken
          (roomy_keeps (mild_aside.resolveKey env components key))
          (fun _ holds => Classified.roomy holds) fun _ _ holds => holds) fun _ => ?_
        refine Ensures.bind (modifyBuffer_ensures fun exec roomy =>
          Roomy.push ⟨.write, fault, disposition, _, _⟩ roomy rfl) fun _ => ?_
        exact Ensures.pure fun _ assured => assured.conducts (by simp)
    | failAndRollback =>
      exact Ensures.pure fun _ holds => Assured.terminal ⟨holds.1, holds.2.1 (by simp)⟩
    | unknown =>
      exact Ensures.pure fun _ holds => ⟨holds.1, fun other => absurd rfl other, by simp⟩
    | stop => exact Ensures.pure fun _ holds => Assured.terminal ⟨holds.1, holds.2.1 (by simp)⟩

private theorem writePhase_conducts (lawful : Lawful limit components) (sequence : Nat)
    (outputs : AttemptOutputs O) :
    Ensures (Assured limit components inherited standing owes)
      (writePhase env components sequence outputs)
      (conductedPhases limit components inherited standing owes).written := by
  refine (conductedPhases limit components inherited standing owes).writePhase env
    (assured_keeps (aside_ask env rfl))
    ((conductedPhases limit components inherited standing owes).updateStreams env
      (fun _ _ assured => assured.conducts (by simp)) _ _ _)
    fun key entered invoked => ?_
  exact (writeFault_conducts env lawful _ _ _ _ _).weaken (fun _ assured => assured)
    fun verdict _ conducts => by cases verdict <;> exact conducts

/-- What the body of an attempt leaves: fuel that runs out leaves the run where it is. -/
def BodyConducts (limit : Nat) (components : Components) (inherited : SkipCounts)
    (standing : Standing) (owes : Bool)
    (result : Option (Verdict × AttemptOutputs O × List ComponentStateEnvelope))
    (exec : Exec I O) : Prop :=
  match result with
  | none => Steady limit components inherited standing owes exec
  | some (verdict, _, _) => verdict.Conducts limit components inherited standing owes exec

theorem attemptBody_conducts (lawful : Lawful limit components) (began : Bool)
    (sequence fuel : Nat) :
    Ensures (Assured limit components inherited standing owes)
      (attemptBody env components began sequence fuel)
      (BodyConducts limit components inherited standing owes) := by
  refine ((conductedPhases limit components inherited standing owes).attemptBody env
    (readPhase_conducts env lawful sequence) (processPhase_conducts env lawful sequence)
    (writePhase_conducts env lawful sequence) began fuel).weaken (fun _ assured => assured)
    fun result _ conducts => ?_
  match result with
  | none => exact conducts.1
  | some (verdict, _, _) => cases verdict <;> exact conducts

end Phases

end OxideBatch.Chunk
