import OxideBatch.Chunk.PhaseSpec

/-! Chunk conservation: an attempt that commits accounts for every item of its
chunk, and every attempt result leaves the loop with the ledger. -/

namespace OxideBatch.Chunk

open OxideBatch.Core Program

variable {I O : Type} {components : Components}

section Commit

/-- Between a successful commit and the next read. -/
structure Closed (exec : Exec I O) : Prop where
  ledger : Ledger exec.trace
  empty : chunkReads exec.trace = []

theorem Closed.quiet {before after : Exec I O} (closed : Closed before)
    (quiet : Quiet before after) : Closed after :=
  ⟨closed.ledger.same quiet.items, quiet.items.reads.trans closed.empty⟩

/-- Outputs, filter decisions, and skips partition settled slots. -/
private theorem settled_partition (trace : Trace I O) (slots : List (ItemSlot I))
    (settled : ∀ slot ∈ slots, slotSettled trace slot) :
    (slots.filterMap (slotOutput trace)).length + slots.countP (slotFiltered trace) +
      slots.countP (·.skipped) = slots.length := by
  induction slots with
  | nil => rfl
  | cons slot slots ih =>
    have rest := ih fun other member => settled other (List.mem_cons_of_mem _ member)
    have here := settled slot List.mem_cons_self
    rw [List.filterMap_cons, List.countP_cons, List.countP_cons, List.length_cons]
    cases skipped : slot.skipped with
    | true =>
      simp [slotOutput, slotFiltered, skipped]
      omega
    | false =>
      cases answer : lastOutcome trace slot.call with
      | none => simp [slotSettled, slotOutput, slotFiltered, skipped, answer] at here
      | some invoked =>
        cases invoked with
        | completed outcome =>
          cases outcome with
          | item output =>
            simp [slotOutput, slotFiltered, skipped, answer]
            omega
          | filtered =>
            simp [slotOutput, slotFiltered, skipped, answer]
            omega
          | stopped => simp [slotSettled, slotOutput, slotFiltered, skipped, answer] at here
        | failed error => simp [slotSettled, slotOutput, slotFiltered, skipped, answer] at here
        | panicked => simp [slotSettled, slotOutput, slotFiltered, skipped, answer] at here

theorem Ready.accounted {exec : Exec I O} (ready : Ready components outputs exec)
    (accepted : ChunkCounts.new exec.buffer.slots.length outputs.values.length
      outputs.values.length outputs.filtered = some counts) :
    Accounted exec.trace counts exec.buffer.slots := by
  cases ChunkCounts.new_eq_some accepted
  refine ⟨ready.reads, ?_, ready.settled, ?_, rfl, ?_, ?_, ready.filtered, ?_⟩
  · exact ready.ledger.ascending.imp Nat.ne_of_lt
  · rw [ready.batch, ready.values]
  · rw [ready.batch]
  · rw [ready.batch]
  · have partition := settled_partition exec.trace exec.buffer.slots ready.settled
    rw [← ready.values, ← ready.filtered] at partition
    exact partition

/-- What a commit call leaves behind. -/
def AfterCommit (answer : Except TransactionError CommitReceipt) (exec : Exec I O) : Prop :=
  match answer with
  | .ok _ => Closed exec
  | .error _ => Ledger exec.trace

theorem Ready.commit {exec : Exec I O} (ready : Ready components outputs exec)
    (accepted : ChunkCounts.new exec.buffer.slots.length outputs.values.length
      outputs.values.length outputs.filtered = some counts)
    (progress : ChunkFaultProgress) (componentState : List ComponentStateEnvelope)
    (answer : Except TransactionError CommitReceipt) :
    AfterCommit answer
      { exec with
        trace := exec.trace ++
          [⟨.commit counts progress componentState exec.buffer.slots, answer⟩] } := by
  have ledger := ready.ledger.commit (ready.accounted accepted) progress componentState answer
  cases answer with
  | ok receipt => exact ⟨ledger, chunkReads_snoc _ _⟩
  | error failure => exact ledger

private theorem ledger_calm : Calm (fun exec : Exec I O => Ledger exec.trace) :=
  fun _ _ ledger still => ledger.same still.quiet.items

private theorem buffered_calm : Calm (Buffered (I := I) (O := O) components) :=
  fun _ _ buffered still => buffered.recast still.quiet.recast

variable (env : Environment I O) (components : Components)

/-- An accepted commit has closed the chunk, whatever the skip totals then say. -/
private theorem acceptCommit_leaves (counts : ChunkCounts) (accepted : ChunkFaultProgress)
    (receipt : CommitReceipt) :
    Ensures Closed (acceptCommit env components counts accepted receipt)
      (AttemptResult.LeadsTo (Buffered components) Closed fun exec => Ledger exec.trace) := by
  refine Ensures.bind (quiet_keeps mild_still.getState Closed.quiet) fun state => ?_
  split
  · exact Ensures.pure fun _ closed => closed.ledger
  · refine Ensures.bind (quiet_keeps (still_modifyState _) Closed.quiet) fun _ => ?_
    split
    · exact Ensures.pure fun _ closed => closed
    · refine Ensures.bind ((quiet_ask env rfl).ensures Closed.quiet) fun _ => ?_
      exact Ensures.pure fun _ closed => closed

private theorem commitAttempt_leaves (outputs : AttemptOutputs O)
    (componentState : List ComponentStateEnvelope) :
    Ensures (Ready components outputs) (commitAttempt env components outputs componentState)
      (AttemptResult.LeadsTo (Buffered components) Closed fun exec => Ledger exec.trace) := by
  refine Ensures.bind getBuffer_ensures fun buffer => ?_
  have held : Ensures
      (fun exec => buffer = exec.buffer ∧ Ready components outputs exec)
      (skipCallbacks env buffer buffer.skips)
      (fun _ exec => buffer.slots = exec.buffer.slots ∧ Ready components outputs exec) := by
    rintro exec ⟨rfl, ready⟩
    have still := mild_still.skipCallbacks env exec.buffer exec.buffer.skips exec
    exact ⟨still.slots.symm, ready.quiet still.quiet⟩
  have rollsBack : ∀ outcome, Ensures
      (fun exec => buffer.slots = exec.buffer.slots ∧ Ready components outputs exec)
      (rollBackTo env outcome)
      (AttemptResult.LeadsTo (Buffered components) Closed fun exec => Ledger exec.trace) :=
    fun outcome => (rollBackTo_leads env ledger_calm outcome).weaken
      (fun _ holds => holds.2.ledger) fun _ _ leaves => leaves
  refine Ensures.bind held fun callbacks => ?_
  split
  · exact rollsBack _
  · split
    · exact rollsBack _
    · rename_i counts counted
      split
      · exact rollsBack _
      · rename_i accepted _
        have committing : Ensures
            (fun exec => buffer.slots = exec.buffer.slots ∧ Ready components outputs exec)
            (ask env (.commit counts accepted componentState buffer.slots))
            AfterCommit := by
          rintro exec ⟨slots, ready⟩
          rw [slots] at counted ⊢
          exact ready.commit counted accepted componentState _
        refine Ensures.bind committing fun answer => ?_
        cases answer with
        | ok receipt => exact acceptCommit_leaves env components _ _ _
        | error failure =>
          cases failure with
          | commitOutcomeUnknown => exact Ensures.pure fun _ ledger => ledger
          | notCommitted => exact rollBackTo_leads env ledger_calm _
          | componentStateUnsupported => exact rollBackTo_leads env ledger_calm _

/-- What an attempt body leaves behind; `none` is exhausted fuel. -/
def BodyLeaves (components : Components)
    (result : Option (Verdict × AttemptOutputs O × List ComponentStateEnvelope))
    (exec : Exec I O) : Prop :=
  match result with
  | none => Ledger exec.trace
  | some (verdict, outputs, _) => verdict.Leaves components (Ready components outputs) exec

private theorem attemptPhases_leaves (sequence fuel : Nat) :
    Ensures (Attempting components) (attemptPhases env components sequence fuel)
      (BodyLeaves components) := by
  refine Ensures.bind (readPhase_leaves env components sequence fuel) fun verdict => ?_
  cases verdict with
  | none => exact Ensures.pure fun _ ledger => ledger
  | some verdict =>
    cases verdict with
    | commit =>
      refine Ensures.bind (quiet_keeps mild_still.getBuffer Attempting.quiet) fun buffer => ?_
      split
      · exact Ensures.pure fun _ attempting => attempting.ledger
      · refine Ensures.bind (processPhase_leaves env components sequence) fun result => ?_
        obtain ⟨verdict, outputs⟩ := result
        cases verdict with
        | commit =>
          refine Ensures.bind (writePhase_leaves env components sequence outputs) fun written => ?_
          exact Ensures.pure fun _ leaves => leaves
        | retry request => exact Ensures.pure fun _ buffered => buffered
        | replay => exact Ensures.pure fun _ buffered => buffered
        | terminal outcome => exact Ensures.pure fun _ ledger => ledger
    | retry request => exact Ensures.pure fun _ buffered => buffered
    | replay => exact Ensures.pure fun _ buffered => buffered
    | terminal outcome => exact Ensures.pure fun _ ledger => ledger

private theorem attemptBody_leaves (began : Bool) (sequence fuel : Nat) :
    Ensures (Attempting components) (attemptBody env components began sequence fuel)
      (BodyLeaves components) := by
  unfold attemptBody
  split
  · exact Ensures.pure fun _ attempting => attempting.ledger
  · refine Ensures.bind (quiet_keeps (mild_still.lacksCapability env components) Attempting.quiet)
      fun lacks => ?_
    split
    · exact Ensures.pure fun _ attempting => attempting.ledger
    · exact attemptPhases_leaves env components sequence fuel

end Commit

section Loop

variable (env : Environment I O) (components : Components)

theorem Closed.renew {exec : Exec I O} (closed : Closed exec) (ordinal : Nat) (digest : Digest) :
    Buffered components { exec with buffer := ChunkBuffer.new I O ordinal digest } :=
  ⟨closed.ledger, closed.empty.symm, Nat.zero_le _⟩

theorem Buffered.begin {exec : Exec I O} (buffered : Buffered components exec)
    (answer : Except TransactionError Unit) :
    Attempting components { exec with trace := exec.trace ++ [⟨.begin, answer⟩] } := by
  have reads := chunkReads_snoc exec.trace ⟨.begin, answer⟩
  exact ⟨⟨buffered.ledger.begin answer, buffered.reads.trans reads.symm, buffered.fits⟩,
    attemptBatch_snoc _ _⟩

theorem Buffered.side {exec : Exec I O} {event : Event I O} (buffered : Buffered components exec)
    (side : event.query.isSide = true) :
    Buffered components { exec with trace := exec.trace ++ [event] } :=
  buffered.recast ⟨.snoc exec.trace event side, rfl⟩

/-- Conservation as an invariant of the loop. -/
def conservationRule : LoopRule env components where
  going := Buffered components
  begun := Attempting components
  ready outputs _ := Ready components outputs
  retrying _ := Buffered components
  closed := Closed
  ended exec := Ledger exec.trace
  goingCalm := buffered_calm
  begunCalm _ _ attempting still := attempting.quiet still.quiet
  retryingPauses _ := buffered_calm.pauses
  closedCalm _ _ closed still := closed.quiet still.quiet
  endedCalm := ledger_calm
  goingEnds _ buffered := buffered.ledger
  begunEnds _ attempting := attempting.ledger
  retryingEnds _ _ buffered := buffered.ledger
  closedEnds _ closed := closed.ledger
  begins _ answer buffered := buffered.begin components answer
  body began sequence fuel := (attemptBody_leaves env components began sequence fuel).weaken
    (fun _ attempting => attempting) fun result exec leaves => by
      match result with
      | none => exact leaves
      | some (verdict, outputs, _) => cases verdict <;> exact leaves
  reserves _ _ buffered := buffered.side components rfl
  refuses _ _ _ buffered := (buffered.side components rfl).ledger
  commits := commitAttempt_leaves env components
  renews _ ordinal digest closed := closed.renew components ordinal digest

end Loop

/-- Chunk conservation: in every run, whatever the components, listeners, fault policy,
fault store, and transaction answer, every commit accounts for each item of its chunk
exactly once, and no item of a committed chunk is processed or written again. -/
theorem run_conserves_items (env : Environment I O) (components : Components) (fuel rounds : Nat)
    (checkpointDigest : Digest) (state : ExecutionState) :
    Sound (run env components fuel rounds checkpointDigest state).2.trace := by
  have start : Buffered components
      ⟨[], ChunkBuffer.new I O components.baseOrdinal checkpointDigest, state⟩ :=
    ⟨Ledger.start, rfl, Nat.zero_le _⟩
  exact ((conservationRule env components).runChunkLoop_ends fuel 0 rounds _ start).sound

end OxideBatch.Chunk
