import OxideBatch.Chunk.FaultLedger

/-! The reads of a chunk under a fault policy: when every record the reader moved past is
in the commit, and the run that loses one. -/

namespace OxideBatch.Chunk

open OxideBatch.Core OxideBatch.Lib Program

variable {I O : Type}

/-- The reader calls since the last successful commit that moved the reader past a record:
those that returned an item, then those that failed past one. -/
def movedReads (trace : Trace I O) : List Nat :=
  (chunkReads trace).map (·.1) ++ passedReads trace

/-- A commit accounts for the reads behind a trace: its slots are the items the reader
returned, its read skips are the records the reader failed past, and no call is both. -/
structure ReadsAccounted (trace : Trace I O) (progress : ChunkFaultProgress)
    (slots : List (ItemSlot I)) : Prop where
  slots : slots.map ItemSlot.read = chunkReads trace
  skips : progress.skips.read = (passedReads trace).length
  once : (movedReads trace).Nodup

/-- The moved reads are numbered below the next call, each once. -/
structure Numbered (trace : Trace I O) : Prop where
  below : ∀ call ∈ movedReads trace, call < readCount trace
  once : (movedReads trace).Nodup

/-- What an event does to the moved reads: none of it, all of it, or one more. -/
private theorem movedReads_snoc (trace : Trace I O) (event : Event I O) :
    movedReads (trace ++ [event]) = movedReads trace ∨
    movedReads (trace ++ [event]) = [] ∨
    ∃ call answer, event = ⟨.read call, answer⟩ ∧
      (movedReads (trace ++ [event])).Perm (call :: movedReads trace) := by
  unfold movedReads
  rw [chunkReads_snoc, passedReads_snoc]
  obtain ⟨query, answer⟩ := event
  cases query with
  | read call =>
    cases answer with
    | completed outcome =>
      cases outcome with
      | item item =>
        refine .inr (.inr ⟨call, _, rfl, ?_⟩)
        simp only [chunkReadsStep, passedReadsStep, List.map_append, List.map_cons, List.map_nil,
          List.append_assoc, List.singleton_append]
        exact List.perm_middle
      | endOfInput => exact .inl rfl
      | stopped => exact .inl rfl
    | failed error =>
      cases advanced : error.hasCheckpointAdvanced with
      | true =>
        refine .inr (.inr ⟨call, _, rfl, ?_⟩)
        simp only [chunkReadsStep, passedReadsStep, advanced, if_true, ← List.append_assoc]
        exact List.perm_append_singleton _ _
      | false =>
        left
        simp [chunkReadsStep, passedReadsStep, advanced]
    | panicked => exact .inl rfl
  | commit counts progress componentState slots =>
    cases answer with
    | ok receipt => exact .inr (.inl rfl)
    | error failure => exact .inl rfl
  | _ => exact .inl rfl

theorem Numbered.snoc {trace : Trace I O} {event : Event I O} (numbered : Numbered trace)
    (sound : SoundAt trace event) : Numbered (trace ++ [event]) := by
  have grows : readCount trace ≤ readCount (trace ++ [event]) := by
    rw [readCount_snoc]
    exact Nat.le_add_right _ _
  rcases movedReads_snoc trace event with same | none | ⟨call, answer, read, more⟩
  · constructor
    · intro call member
      rw [same] at member
      exact (numbered.below call member).trans_le grows
    · rw [same]
      exact numbered.once
  · constructor
    · intro call member
      rw [none] at member
      cases member
    · rw [none]
      exact List.nodup_nil
  · subst read
    have next : call = readCount trace := sound
    constructor
    · intro other member
      rw [readCount_snoc]
      change other < readCount trace + 1
      rcases List.mem_cons.mp (more.mem_iff.mp member) with here | before
      · omega
      · exact Nat.lt_succ_of_lt (numbered.below other before)
    · rw [more.nodup_iff, List.nodup_cons]
      refine ⟨?_, numbered.once⟩
      intro member
      exact absurd (numbered.below call member) (by omega)

theorem Sound.numbered {trace : Trace I O} (sound : Sound trace) : Numbered trace := by
  refine Throughout.carries sound ?_ fun _ _ numbered here => numbered.snoc here
  exact ⟨fun _ member => absurd member List.not_mem_nil, List.nodup_nil⟩

/-- Under any policy, in every run, a commit in front of which no retry answered a read
that had moved the reader on accounts for every record the reader moved past, each
exactly once. -/
theorem run_accounts_for_reads (env : Environment I O) (components : Components)
    (policy : FaultPolicy) (deliveryMode : ChunkDeliveryMode) (fuel rounds : Nat)
    (checkpointDigest : Digest) (state : ExecutionState)
    (before after : Trace I O) (counts : ChunkCounts) (progress : ChunkFaultProgress)
    (componentState : List ComponentStateEnvelope) (slots : List (ItemSlot I))
    (answer : Except TransactionError CommitReceipt)
    (commits : (run env (components.governed policy deliveryMode) fuel rounds checkpointDigest
      state).2.trace =
        before ++ ⟨.commit counts progress componentState slots, answer⟩ :: after)
    (stays : StaysPut policy before) : ReadsAccounted before progress slots := by
  have sound := run_conserves_items env (components.governed policy deliveryMode) fuel rounds
    checkpointDigest state
  have kept := run_kept env components policy deliveryMode fuel rounds checkpointDigest state
  have accounted : Accounted before counts slots := sound _ _ _ commits
  have skipped : StaysPut policy before → progress.skips.read = (passedReads before).length :=
    kept _ _ _ commits
  rw [commits] at sound
  have soundBefore : Sound before := Throughout.of_append sound
  exact ⟨accounted.reads, skipped stays, soundBefore.numbered.once⟩

/-- A policy without a retry rule for reads leaves the reader where it is. -/
private theorem staysPut_of_no_retry {policy : FaultPolicy} (trace : Trace I O)
    (never : ∀ category ordinal, policy.retries .read category ordinal = none) :
    StaysPut policy trace := by
  intro _ _ error _ held _ _ _
  exact never error.category (Option.getD held 0)

/-- The read skips of an accepted commit. -/
def Event.committedReadSkips (event : Event I O) : Option Nat :=
  match event with
  | ⟨.commit _ progress _ _, .ok _⟩ => some progress.skips.read
  | _ => none

/-- A trace opens up at an accepted commit. -/
private theorem opens_at_commit {events : Trace I O} {index skips : Nat}
    (found : events[index]?.bind Event.committedReadSkips = some skips) :
    ∃ counts progress componentState slots receipt,
      events = events.take index ++
        ⟨.commit counts progress componentState slots, .ok receipt⟩ :: events.drop (index + 1) ∧
      progress.skips.read = skips := by
  obtain ⟨event, here, committed⟩ := Option.bind_eq_some_iff.mp found
  have opened : events = events.take index ++ event :: events.drop (index + 1) := by
    obtain ⟨within, rfl⟩ := List.getElem?_eq_some_iff.mp here
    rw [List.getElem_cons_drop, List.take_append_drop]
  obtain ⟨query, answer⟩ := event
  cases query with
  | commit counts progress componentState slots =>
    cases answer with
    | ok receipt => exact ⟨_, _, _, _, _, opened, Option.some_inj.mp committed⟩
    | error failure => cases committed
  | _ => cases committed

section Lost

/-- A policy with one rule, for the failures of one phase, and one retry. -/
def onePolicy (phase : FaultPhase) (action : FaultAction) :
    Except FaultPolicyError FaultPolicy := do
  let rule ← FaultRule.new phase .userComponent action
  let classifier ← FaultClassifier.new ⟨"r1", Eq.refl true⟩ [rule]
  FaultPolicy.new classifier 1 16 1 ⟨.none, 0, 1, 0⟩

/-- A step whose reads and processings follow a script; every other call succeeds and the
store holds no reservation. -/
def scripted (read : Nat → Invoked (ReadOutcome Nat) ReaderError)
    (process : Trace Nat Nat → Nat → Nat → Invoked (ProcessOutcome Nat) ProcessorError) :
    Environment Nat Nat := fun trace query =>
  match query with
  | .read call => read call
  | .process call input => process trace call input
  | .write _ => .completed .written
  | .begin => .ok ()
  | .commit _ _ _ _ => .ok ⟨[]⟩
  | .stop => false
  | .before _ => ⟨0, none⟩
  | .after _ _ => []
  | .beforeChunk _ _ => none
  | .afterChunk _ _ _ => none
  | .businessTransaction => true
  | .rollback => true
  | .reserve _ => .ok ()
  | .resolve _ => ()
  | .reservedOrdinal _ => none
  | .clearResolved => ()
  | .sleep _ => .elapsed
  | .policyBegin => some ()
  | .policyIsComplete _ => some false
  | .policyEnd _ => some ()
  | .afterCommit _ _ => .completed .acknowledged
  | .updateStream _ => .error ()
  | .emit _ => ()

/-- A reader that fails past its first record, then returns the second and ends. -/
def losingReader : Environment Nat Nat :=
  scripted
    (fun
      | 0 => .failed (ReaderError.new.withCheckpointAdvanced true)
      | 1 => .completed (.item 7)
      | _ => .completed .endOfInput)
    fun _ _ input => .completed (.item input)

/-- A step of chunks of two, with a retry key for each phase of each item. -/
def pairComponents : Components :=
  ⟨2, none, [], false, true, 0, 0,
    fun phase digest ordinal => digest ++ [if phase = .read then 0 else 1, .ofNat ordinal]⟩

/-- The run of that reader under a policy. -/
def lossyTrace (policy : FaultPolicy) : Trace Nat Nat :=
  (run losingReader (pairComponents.governed policy .atLeastOnce) 5 3 []
    (.inheriting .zero .zero 0)).2.trace

/-- Retrying the read that failed past the first record commits the second one alone. -/
theorem retried_read_is_lost :
    ∃ policy, onePolicy .read .retry = .ok policy ∧
    ∃ before after counts progress componentState slots receipt,
      lossyTrace policy =
        before ++ ⟨.commit counts progress componentState slots, .ok receipt⟩ :: after ∧
      ¬ ReadsAccounted before progress slots := by
  refine ⟨_, rfl, ?_⟩
  have found : (lossyTrace ⟨⟨⟨"r1", by decide⟩, [⟨.userComponent, .read, .retry⟩]⟩, 1, 16, 1,
      ⟨.none, 0, 1, 0⟩⟩)[36]?.bind Event.committedReadSkips = some 0 := by decide +kernel
  obtain ⟨counts, progress, componentState, slots, receipt, opened, none⟩ := opens_at_commit found
  refine ⟨_, _, counts, progress, componentState, slots, receipt, opened, ?_⟩
  intro accounted
  have passed := accounted.skips
  rw [none] at passed
  exact absurd passed (by decide +kernel)

/-- Skipping it commits the second record together with the skip of the first. -/
theorem skipped_read_is_accounted :
    ∃ policy, onePolicy .read (.skipping .rollback) = .ok policy ∧
    ∃ before after counts progress componentState slots receipt,
      lossyTrace policy =
        before ++ ⟨.commit counts progress componentState slots, .ok receipt⟩ :: after ∧
      passedReads before = [0] ∧ ReadsAccounted before progress slots := by
  refine ⟨_, rfl, ?_⟩
  have found : (lossyTrace ⟨⟨⟨"r1", by decide⟩, [⟨.userComponent, .read, .skipping .rollback⟩]⟩,
      1, 16, 1, ⟨.none, 0, 1, 0⟩⟩)[31]?.bind Event.committedReadSkips = some 1 := by
    decide +kernel
  obtain ⟨counts, progress, componentState, slots, receipt, opened, _⟩ := opens_at_commit found
  refine ⟨_, _, counts, progress, componentState, slots, receipt, opened, by decide +kernel, ?_⟩
  apply run_accounts_for_reads losingReader pairComponents _ .atLeastOnce 5 3 []
    (.inheriting .zero .zero 0) _ _ counts progress componentState slots (.ok receipt) opened
  apply staysPut_of_no_retry
  intro category ordinal
  cases category <;> rfl

end Lost

end OxideBatch.Chunk
