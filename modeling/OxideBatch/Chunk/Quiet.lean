import OxideBatch.Chunk.Account
import OxideBatch.Chunk.Mild

/-! Quiet programs: the helpers of the chunk runtime that touch neither items nor
buffered slots, and those among them that leave skips and retries alone as well. -/

namespace OxideBatch.Chunk

open OxideBatch.Core Program

variable {I O : Type}

/-- The step changed no item projection of the trace and no buffered slot. -/
structure Quiet (before after : Exec I O) : Prop where
  items : SameItems before.trace after.trace
  slots : after.buffer.slots = before.buffer.slots

/-- Side calls that neither grant retries nor clear them. -/
def Query.isCalm : Query I O → Bool
  | .reserve _ | .clearResolved => false
  | query => query.isSide

/-- Where a chunk stands: the generation it belongs to, its first record and its next one. -/
structure ChunkPlace where
  checkpointDigest : Digest
  baseOrdinal : Nat
  readOrdinal : Nat

def ChunkBuffer.place (buffer : ChunkBuffer I O) : ChunkPlace :=
  ⟨buffer.checkpointDigest, buffer.baseOrdinal, buffer.readOrdinal⟩

/-- The step made calm calls only and left the buffered slots and skips alone. -/
structure Still (before after : Exec I O) : Prop where
  events : ∃ events, after.trace = before.trace ++ events ∧
    ∀ event ∈ events, event.query.isCalm = true
  slots : after.buffer.slots = before.buffer.slots
  skips : after.buffer.skips = before.buffer.skips
  place : after.buffer.place = before.buffer.place

theorem Query.isSide_of_isCalm {query : Query I O} (calm : query.isCalm = true) :
    query.isSide = true := by
  cases query <;> first | rfl | cases calm

/-- The calls the mild helpers make are calm. -/
theorem Query.isCalm_of_isMild {query : Query I O} (mild : query.isMild = true) :
    query.isCalm = true := by
  cases query <;> first | rfl | cases mild

theorem SameItems.append {trace : Trace I O} {events : List (Event I O)}
    (sides : ∀ event ∈ events, event.query.isSide = true) : SameItems trace (trace ++ events) := by
  induction events generalizing trace with
  | nil =>
    rw [List.append_nil]
    exact .refl trace
  | cons event events ih =>
    have first := SameItems.snoc trace event (sides event List.mem_cons_self)
    have rest := @ih (trace ++ [event]) fun other member =>
      sides other (List.mem_cons_of_mem _ member)
    rw [List.append_assoc, List.singleton_append] at rest
    exact first.trans rest

theorem Still.quiet {before after : Exec I O} (still : Still before after) :
    Quiet before after := by
  obtain ⟨events, trace, calm⟩ := still.events
  refine ⟨?_, still.slots⟩
  rw [trace]
  exact .append fun event member => Query.isSide_of_isCalm (calm event member)

theorem Still.refl (exec : Exec I O) : Still exec exec :=
  ⟨⟨[], by simp, by simp⟩, rfl, rfl, rfl⟩

theorem Still.trans {first second third : Exec I O} (left : Still first second)
    (right : Still second third) : Still first third := by
  obtain ⟨front, leftTrace, leftCalm⟩ := left.events
  obtain ⟨back, rightTrace, rightCalm⟩ := right.events
  refine ⟨⟨front ++ back, ?_, ?_⟩, right.slots.trans left.slots, right.skips.trans left.skips,
    right.place.trans left.place⟩
  · rw [rightTrace, leftTrace, List.append_assoc]
  · intro event member
    rcases List.mem_append.mp member with inFront | inBack
    · exact leftCalm event inFront
    · exact rightCalm event inBack

private theorem still_pure (value : α) : Along Still (pure value : ChunkM I O α) :=
  Along.pure Still.refl value

private theorem still_bind {program : ChunkM I O α} {next : α → ChunkM I O β}
    (first : Along Still program) (second : ∀ value, Along Still (next value)) :
    Along Still (program >>= next) :=
  Along.bind Still.trans first second

theorem still_modifyState (change : ExecutionState → ExecutionState) :
    Along Still (modifyState change : ChunkM I O Unit) :=
  fun exec => ⟨(Still.refl exec).events, rfl, rfl, rfl⟩

theorem still_modifyBuffer {change : ChunkBuffer I O → ChunkBuffer I O}
    (same : ∀ buffer, (change buffer).slots = buffer.slots ∧
      (change buffer).skips = buffer.skips ∧ (change buffer).place = buffer.place) :
    Along Still (modifyBuffer change) :=
  fun exec => ⟨(Still.refl exec).events, (same exec.buffer).1, (same exec.buffer).2.1,
    (same exec.buffer).2.2⟩

section Helpers

variable (env : Environment I O) (components : Components)

theorem quiet_ask {query : Query I O} (side : query.isSide = true) : Along Quiet (ask env query) :=
  fun exec => ⟨.snoc exec.trace _ side, rfl⟩

theorem still_ask {query : Query I O} (calm : query.isCalm = true) : Along Still (ask env query) :=
  fun exec => ⟨⟨[⟨query, env exec.trace query⟩], rfl, List.forall_mem_singleton.mpr calm⟩, rfl, rfl, rfl⟩

theorem mild_still : Settling (Still : Exec I O → Exec I O → Prop) where
  refl := Still.refl
  trans := Still.trans
  ask exec query answer mild :=
    ⟨⟨[⟨query, answer⟩], rfl, List.forall_mem_singleton.mpr (Query.isCalm_of_isMild mild)⟩,
      rfl, rfl, rfl⟩
  state exec state _ := ⟨(Still.refl exec).events, rfl, rfl, rfl⟩
  retry exec retry := ⟨(Still.refl exec).events, rfl, rfl, rfl⟩
  resolve exec key := ⟨⟨[⟨.resolve key, ()⟩], rfl, List.forall_mem_singleton.mpr rfl⟩, rfl, rfl, rfl⟩

theorem still_emit (event : ChunkRuntimeEvent) : Along Still (emit env event) :=
  still_bind (still_ask env rfl) fun _ => still_pure ()

theorem still_stopRequested : Along Still (stopRequested env) := still_ask env rfl

theorem still_rollback : Along Still (rollback env) := still_ask env rfl

theorem still_classifyFault (phase : FaultPhase) (category : FailureCategory) (key : Digest)
    (pass : FaultDescriptor → ItemPass I O) (entered : Nat) (evidence : FaultEvidence)
    (sequence : Nat) :
    Along Still (classifyFault env components phase category key pass entered evidence sequence) :=
  mild_still.classifyFault env components (fun _ _ => still_ask env rfl) _ _ _ _ _ _ _

theorem still_settleUnit (pass : ItemPass I O) (entered : Nat) (key : Digest) :
    Along Still (settleUnit env components pass entered key) :=
  mild_still.settles env components (still_ask env rfl) key

theorem still_beginPolicy : Along Still (beginPolicy env components) := by
  unfold beginPolicy
  split
  · exact still_bind (still_ask env rfl) fun _ => still_pure _
  · exact still_pure _

theorem still_finishPolicy (began : Bool) (outcome : ChunkAttemptOutcome) :
    Along Still (finishPolicy env began outcome) := by
  unfold finishPolicy
  split
  · exact still_bind (still_ask env rfl) fun _ => still_pure _
  · exact still_pure _

private theorem still_runAfterListeners (sequence : Nat) (outcome : ChunkAttemptOutcome)
    (indices : List Nat) : Along Still (runAfterListeners env sequence outcome indices) := by
  induction indices with
  | nil => exact still_pure _
  | cons index indices ih =>
    refine still_bind (still_ask env rfl) fun answer => still_bind ih fun later => ?_
    split
    · exact still_pure _
    · exact still_pure _

theorem still_closeAttempt (began : Bool) (sequence : Nat) (attemptOutcome : ChunkAttemptOutcome)
    (replaced : Option ChunkExecutionOutcome) :
    Along Still (closeAttempt env components began sequence attemptOutcome replaced) := by
  refine still_bind (still_runAfterListeners env _ _ _) fun failures => ?_
  refine still_bind (still_finishPolicy env began attemptOutcome) fun panicked => ?_
  split
  · refine still_bind (still_modifyState _) fun _ => ?_
    exact still_bind (mild_still.reportWith _ _) fun _ => still_pure _
  · split
    · exact still_bind (mild_still.reportWith _ _) fun _ => still_pure _
    · exact still_pure _

theorem still_finishFailedAttempt (began : Bool) (sequence : Nat)
    (attemptOutcome : ChunkAttemptOutcome) (outcome : ChunkExecutionOutcome) :
    Along Still (finishFailedAttempt env components began sequence attemptOutcome outcome) := by
  refine still_bind (still_closeAttempt env components _ _ _ _) fun closed => ?_
  split
  · exact mild_still.reportWith _ _
  · split
    · exact mild_still.reportWith _ _
    · exact still_pure _

theorem still_recordRolledBackAttempt (began : Bool) (sequence : Nat) :
    Along Still (recordRolledBackAttempt env components began sequence) := by
  refine still_bind mild_still.getState fun state => ?_
  split
  · refine still_bind (mild_still.reportWith _ _) fun _ => ?_
    exact still_bind (still_finishPolicy env began _) fun _ => still_pure _
  · refine still_bind (still_modifyState _) fun _ => still_bind (still_emit env _) fun _ => ?_
    exact still_closeAttempt env components began sequence _ _

end Helpers

end OxideBatch.Chunk
