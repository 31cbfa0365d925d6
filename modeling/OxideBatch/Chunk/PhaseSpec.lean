import OxideBatch.Chunk.Ledger

/-! The phases of an attempt against the ledger: reading buffers what the reader
returned, processing settles every buffered slot, and writing hands over the
outputs of the settled slots. -/

namespace OxideBatch.Chunk

open OxideBatch.Core Program

variable {I O : Type} {components : Components}

/-- What a phase leaves behind with its verdict: `going` when the attempt goes on
towards its commit, the buffered chunk when it will be replayed, and the ledger
alone when the step ends. -/
def Verdict.Leaves (components : Components) (going : Exec I O → Prop) (verdict : Verdict)
    (exec : Exec I O) : Prop :=
  match verdict with
  | .commit => going exec
  | .retry _ | .replay => Buffered components exec
  | .terminal _ => Ledger exec.trace

/-- The same for a unit of a phase: `none` goes on, and an interrupting verdict is
never a commit. -/
def UnitLeaves (components : Components) (going : Exec I O → Prop) (verdict : Option Verdict)
    (exec : Exec I O) : Prop :=
  match verdict with
  | none => going exec
  | some verdict => verdict.Leaves components (fun _ => False) exec

theorem Verdict.Leaves.mono {verdict : Verdict} {going other : Exec I O → Prop}
    (leaves : verdict.Leaves components going exec) (weaker : going exec → other exec) :
    verdict.Leaves components other exec := by
  cases verdict with
  | commit => exact weaker leaves
  | retry request => exact leaves
  | replay => exact leaves
  | terminal outcome => exact leaves

theorem UnitLeaves.verdict {verdict : Verdict} {going other : Exec I O → Prop}
    (leaves : UnitLeaves components going (some verdict) exec) :
    verdict.Leaves components other exec := by
  have never : verdict.Leaves components (fun _ => False) exec := leaves
  exact never.mono False.elim

theorem quiet_keeps {program : ChunkM I O α} {invariant : Exec I O → Prop}
    (still : Along Still program)
    (kept : ∀ {before after}, invariant before → Quiet before after → invariant after) :
    Ensures invariant program (fun _ => invariant) :=
  still.ensures fun holds moved => kept holds moved.quiet

section Read

/-- Inside the read loop, where one more item fits. -/
structure Room (components : Components) (exec : Exec I O) : Prop
    extends Attempting components exec where
  room : exec.buffer.slots.length < components.size.get

/-- The reader returned an item that is not buffered yet. -/
structure Pending (components : Components) (call : Nat) (item : I) (exec : Exec I O) : Prop where
  ledger : Ledger exec.trace
  reads : exec.buffer.slots.map ItemSlot.read ++ [(call, item)] = chunkReads exec.trace
  room : exec.buffer.slots.length < components.size.get
  unwritten : attemptBatch exec.trace = []

theorem Attempting.quiet {before after : Exec I O} (attempting : Attempting components before)
    (quiet : Quiet before after) : Attempting components after :=
  attempting.recast quiet.recast

theorem Room.quiet {before after : Exec I O} (room : Room components before)
    (quiet : Quiet before after) : Room components after :=
  ⟨room.toAttempting.quiet quiet, by rw [quiet.slots]; exact room.room⟩

theorem Pending.quiet {before after : Exec I O} (pending : Pending components call item before)
    (quiet : Quiet before after) : Pending components call item after := by
  refine ⟨pending.ledger.same quiet.items, ?_, ?_, ?_⟩
  · rw [quiet.slots, quiet.items.reads]
    exact pending.reads
  · rw [quiet.slots]
    exact pending.room
  · exact quiet.items.batch.trans pending.unwritten

/-- Buffering the pending item closes the gap to the ledger. -/
theorem Pending.push {exec : Exec I O} (pending : Pending components call item exec)
    (slots : buffer.slots = exec.buffer.slots ++ [⟨item, ordinal, false, call⟩]) :
    Attempting components { exec with buffer := buffer } := by
  refine ⟨⟨pending.ledger, ?_, ?_⟩, pending.unwritten⟩
  · rw [← pending.reads, slots]
    simp [ItemSlot.read]
  · have room := pending.room
    rw [slots, List.length_append]
    exact room

/-- What one reader call leaves behind. -/
def AfterRead (components : Components) (call : Nat)
    (answer : Invoked (ReadOutcome I) ReaderError) (exec : Exec I O) : Prop :=
  match answer with
  | .completed (.item item) => Pending components call item exec
  | _ => Attempting components exec

theorem Room.read {exec : Exec I O} (room : Room components exec)
    (answer : Invoked (ReadOutcome I) ReaderError) :
    AfterRead components (readCount exec.trace) answer
      { exec with trace := exec.trace ++ [⟨.read (readCount exec.trace), answer⟩] } := by
  have ledger := room.ledger.read answer
  have unwritten : attemptBatch (exec.trace ++ [⟨.read (readCount exec.trace), answer⟩]) = [] :=
    (attemptBatch_snoc _ _).trans room.unwritten
  have reads := chunkReads_snoc exec.trace ⟨.read (readCount exec.trace), answer⟩
  cases answer with
  | completed outcome =>
    cases outcome with
    | item item =>
      refine ⟨ledger, ?_, room.room, unwritten⟩
      rw [reads, room.reads]
      rfl
    | endOfInput => exact ⟨⟨ledger, room.reads.trans reads.symm, room.fits⟩, unwritten⟩
    | stopped => exact ⟨⟨ledger, room.reads.trans reads.symm, room.fits⟩, unwritten⟩
  | failed error => exact ⟨⟨ledger, room.reads.trans reads.symm, room.fits⟩, unwritten⟩
  | panicked => exact ⟨⟨ledger, room.reads.trans reads.symm, room.fits⟩, unwritten⟩

end Read

section Phases

variable (env : Environment I O) (components : Components)

private theorem readFault_leaves (sequence : Nat) (key : Digest) (entered : Nat)
    (invoked : Invoked (ReadOutcome I) ReaderError) :
    Ensures (Attempting components) (readFault env components sequence key entered invoked)
      (UnitLeaves components (Attempting components)) := by
  refine Ensures.bind (quiet_keeps (still_classifyFault env components _ _ _ _ _ _ _)
    Attempting.quiet) fun answer => ?_
  split
  · exact Ensures.pure fun _ attempting => attempting.ledger
  · split
    · exact Ensures.pure fun _ attempting => attempting.toBuffered
    · refine Ensures.bind (quiet_keeps (mild_still.resolveKey env components key) Attempting.quiet)
        fun _ => ?_
      refine Ensures.bind (modifyBuffer_ensures fun _ attempting =>
        attempting.recast ⟨.refl _, rfl⟩) fun _ => ?_
      refine Ensures.pure fun _ attempting => ?_
      split
      · exact attempting.toBuffered
      · exact attempting
    · exact Ensures.pure fun _ attempting => attempting.ledger
    · exact Ensures.pure fun _ attempting => attempting.ledger
    · exact Ensures.pure fun _ attempting => attempting.ledger

private theorem readOne_leaves (sequence : Nat) :
    Ensures (Room components) (readOne env components sequence)
      (UnitLeaves components (Attempting components)) := by
  refine Ensures.bind (quiet_keeps mild_still.getBuffer Room.quiet) fun buffer => ?_
  refine Ensures.bind (quiet_keeps (mild_still.beforePass env _) Room.quiet) fun before => ?_
  split
  · exact Ensures.pure fun _ room => room.ledger
  · rename_i entered
    refine Ensures.bind Ensures.get fun now => ?_
    have reading : Ensures (fun exec => now = exec ∧ Room components exec)
        (ask env (.read (readCount now.trace))) (AfterRead components (readCount now.trace)) := by
      rintro _ ⟨rfl, room⟩
      exact room.read _
    refine Ensures.bind reading fun answer => ?_
    split
    · refine Ensures.bind (quiet_keeps (still_settleUnit env components _ _ _) Pending.quiet)
        fun ended => ?_
      split
      · exact Ensures.pure fun _ pending => pending.ledger
      · exact fun _ pending => pending.push rfl
    · exact fun exec attempting => attempting.quiet ⟨.refl _, rfl⟩
    · exact Ensures.pure fun _ attempting => attempting.ledger
    · exact readFault_leaves env components _ _ _ _
    · exact readFault_leaves env components _ _ _ _

/-- A chunk that stops reading towards its commit holds everything it read. -/
theorem readPhase_leaves (sequence fuel : Nat) :
    Ensures (Attempting components) (readPhase env components sequence fuel)
      (fun verdict exec => (verdict.getD (.terminal .unknown)).Leaves components
        (Attempting components) exec) := by
  induction fuel with
  | zero => exact Ensures.pure fun _ attempting => attempting.ledger
  | succ fuel ih =>
    refine Ensures.bind getBuffer_ensures fun buffer => ?_
    split
    · exact Ensures.pure fun _ holds => holds.2
    · rename_i unfinished
      have room : ∀ exec, buffer = exec.buffer ∧ Attempting components exec →
          Room components exec := by
        rintro exec ⟨rfl, attempting⟩
        exact ⟨attempting, Nat.lt_of_not_le fun full => unfinished (.inr full)⟩
      refine Ensures.weaken ?_ room fun _ _ leaves => leaves
      refine Ensures.bind (quiet_keeps (mild_still.policyComplete env components) Room.quiet)
        fun complete => ?_
      split
      · exact Ensures.pure fun _ room => room.ledger
      · exact Ensures.pure fun _ room => room.toAttempting
      · refine Ensures.bind (quiet_keeps (mild_still.attemptStop env components) Room.quiet)
          fun stop => ?_
        split
        · exact Ensures.pure fun _ room => room.ledger
        · refine Ensures.bind (readOne_leaves env components sequence) fun verdict => ?_
          split
          · exact Ensures.pure fun _ leaves => leaves.verdict
          · exact ih

end Phases

section Process

/-- Of `total` slots those before `done` are settled, and the outputs are theirs. -/
structure Processed (components : Components) (total done : Nat) (outputs : AttemptOutputs O)
    (exec : Exec I O) : Prop extends Attempting components exec where
  length : exec.buffer.slots.length = total
  values : outputs.values = (exec.buffer.slots.take done).filterMap (slotOutput exec.trace)
  filtered : outputs.filtered = (exec.buffer.slots.take done).countP (slotFiltered exec.trace)
  settled : ∀ slot ∈ exec.buffer.slots.take done, slotSettled exec.trace slot

theorem Processed.quiet {before after : Exec I O} (processed : Processed components total done outputs before)
    (quiet : Quiet before after) : Processed components total done outputs after := by
  have sameOutput : slotOutput after.trace = slotOutput before.trace :=
    funext quiet.items.slotOutput
  have sameFiltered : slotFiltered after.trace = slotFiltered before.trace :=
    funext quiet.items.slotFiltered
  refine ⟨processed.toAttempting.quiet quiet, by rw [quiet.slots]; exact processed.length,
    ?_, ?_, ?_⟩
  · rw [quiet.slots, sameOutput]
    exact processed.values
  · rw [quiet.slots, sameFiltered]
    exact processed.filtered
  · intro slot member
    rw [quiet.slots] at member
    exact (quiet.items.slotSettled slot).mpr (processed.settled slot member)

theorem Buffered.ascending {exec : Exec I O} (buffered : Buffered components exec) :
    exec.buffer.slots.Pairwise (·.call < ·.call) := by
  have sorted := buffered.ledger.ascending
  rw [← buffered.reads, List.map_map, List.pairwise_map] at sorted
  exact sorted

theorem Buffered.call_ne {exec : Exec I O} (buffered : Buffered components exec)
    (found : exec.buffer.slots[done]? = some slot) (earlier : other ∈ exec.buffer.slots.take done) :
    slot.call ≠ other.call := by
  obtain ⟨position, bound, rfl⟩ := List.mem_take_iff_getElem.mp earlier
  obtain ⟨inside, rfl⟩ := List.getElem?_eq_some_iff.mp found
  have below : position < done := by omega
  exact Nat.ne_of_gt
    (List.pairwise_iff_getElem.mp buffered.ascending position done (by omega) inside below)

/-- The slot at `done` was just handed to the processor. -/
structure Handled (components : Components) (total done : Nat) (outputs : AttemptOutputs O)
    (slot : ItemSlot I) (answer : Invoked (ProcessOutcome O) ProcessorError)
    (exec : Exec I O) : Prop extends Processed components total done outputs exec where
  here : exec.buffer.slots[done]? = some slot
  unskipped : slot.skipped = false
  last : lastOutcome exec.trace slot.call = some answer

theorem Handled.quiet {before after : Exec I O}
    (handled : Handled components total done outputs slot answer before) (quiet : Quiet before after) :
    Handled components total done outputs slot answer after :=
  ⟨handled.toProcessed.quiet quiet, by rw [quiet.slots]; exact handled.here, handled.unskipped,
    (quiet.items.outcomes slot.call).trans handled.last⟩

theorem Processed.process {exec : Exec I O} (processed : Processed components total done outputs exec)
    (here : exec.buffer.slots[done]? = some slot) (unskipped : slot.skipped = false)
    (answer : Invoked (ProcessOutcome O) ProcessorError) :
    Handled components total done outputs slot answer
      { exec with trace := exec.trace ++ [⟨.process slot.call slot.item, answer⟩] } := by
  have member : (slot.call, slot.item) ∈ chunkReads exec.trace := by
    rw [← processed.reads]
    exact List.mem_map_of_mem (f := ItemSlot.read) (List.mem_of_getElem? here)
  have others : ∀ other ∈ exec.buffer.slots.take done,
      lastOutcome (exec.trace ++ [⟨.process slot.call slot.item, answer⟩]) other.call =
        lastOutcome exec.trace other.call := by
    intro other earlier
    rw [lastOutcome_process, if_neg (processed.call_ne here earlier)]
  have outputsSame : ∀ other ∈ exec.buffer.slots.take done,
      slotOutput (exec.trace ++ [⟨.process slot.call slot.item, answer⟩]) other =
        slotOutput exec.trace other := by
    intro other earlier
    rw [slotOutput, slotOutput, others other earlier]
  have filteredSame : ∀ other ∈ exec.buffer.slots.take done,
      slotFiltered (exec.trace ++ [⟨.process slot.call slot.item, answer⟩]) other =
        slotFiltered exec.trace other := by
    intro other earlier
    rw [slotFiltered, slotFiltered, others other earlier]
  refine ⟨⟨⟨⟨processed.ledger.process member answer, ?_, processed.fits⟩, ?_⟩, processed.length,
    ?_, ?_, ?_⟩, here, unskipped, ?_⟩
  · have same := chunkReads_snoc exec.trace ⟨.process slot.call slot.item, answer⟩
    exact processed.reads.trans same.symm
  · exact (attemptBatch_snoc _ _).trans processed.unwritten
  · rw [List.filterMap_congr outputsSame]
    exact processed.values
  · rw [List.countP_congr fun other earlier => by rw [filteredSame other earlier]]
    exact processed.filtered
  · intro other earlier
    rw [slotSettled, outputsSame other earlier, filteredSame other earlier]
    exact processed.settled other earlier
  · rw [lastOutcome_process, if_pos rfl]

/-- One more settled slot. -/
theorem Processed.advance {exec : Exec I O} (processed : Processed components total done outputs exec)
    (here : exec.buffer.slots[done]? = some slot) (settled : slotSettled exec.trace slot)
    (values : next.values = outputs.values ++ (slotOutput exec.trace slot).toList)
    (filtered : next.filtered = outputs.filtered + (slotFiltered exec.trace slot).toNat) :
    Processed components total (done + 1) next exec := by
  have taken : exec.buffer.slots.take (done + 1) = exec.buffer.slots.take done ++ [slot] := by
    rw [List.take_add_one, here]
    rfl
  refine ⟨processed.toAttempting, processed.length, ?_, ?_, ?_⟩
  · rw [values, processed.values, taken, List.filterMap_append]
    cases kept : slotOutput exec.trace slot <;> simp [kept]
  · rw [filtered, processed.filtered, taken, List.countP_append]
    cases kept : slotFiltered exec.trace slot <;> simp [kept]
  · intro other member
    rw [taken, List.mem_append, List.mem_singleton] at member
    rcases member with earlier | rfl
    · exact processed.settled other earlier
    · exact settled

theorem Handled.output {exec : Exec I O} {output : O}
    (handled : Handled components total done outputs slot (.completed (.item output)) exec)
    (indices : List Nat) :
    Processed components total (done + 1)
      ⟨outputs.values ++ [(slot.call, output)], indices, outputs.filtered⟩ exec := by
  have produced : slotOutput exec.trace slot = some (slot.call, output) := by
    simp [slotOutput, handled.unskipped, handled.last]
  have unfiltered : slotFiltered exec.trace slot = false := by
    simp [slotFiltered, handled.last]
  refine handled.toProcessed.advance handled.here (.inr (.inl ?_)) ?_ ?_
  · rw [produced]
    rfl
  · rw [produced]
    rfl
  · rw [unfiltered]
    rfl

theorem Processed.filtered_le {exec : Exec I O}
    (processed : Processed components total done outputs exec) : outputs.filtered < 2 ^ 32 := by
  have counted : outputs.filtered ≤ (exec.buffer.slots.take done).length := by
    rw [processed.filtered]
    exact List.countP_le_length
  have taken : (exec.buffer.slots.take done).length ≤ exec.buffer.slots.length :=
    List.length_take_le' _ _
  have fits := processed.fits
  have within := components.size.within
  omega

theorem Handled.filter {exec : Exec I O}
    (handled : Handled components total done outputs slot (.completed .filtered) exec) :
    Processed components total (done + 1)
      ⟨outputs.values, outputs.slots, saturatingAdd outputs.filtered 1⟩ exec := by
  have silent : slotOutput exec.trace slot = none := by
    simp [slotOutput, handled.last]
  have dropped : slotFiltered exec.trace slot = true := by
    simp [slotFiltered, handled.unskipped, handled.last]
  have small := handled.toProcessed.filtered_le
  refine handled.toProcessed.advance handled.here (.inr (.inr dropped)) ?_ ?_
  · rw [silent]
    exact (List.append_nil _).symm
  · rw [dropped]
    simp only [saturatingAdd, u64Limit, Bool.toNat_true]
    omega

/-- A slot that is skipped already contributes nothing. -/
theorem Processed.pass {exec : Exec I O} (processed : Processed components total done outputs exec)
    (here : exec.buffer.slots[done]? = some slot) (skipped : slot.skipped = true) :
    Processed components total (done + 1) outputs exec := by
  refine processed.advance here (.inl skipped) ?_ ?_
  · simp [slotOutput, skipped]
  · simp [slotFiltered, skipped]

/-- Marking the slot at `done` skipped settles it. -/
theorem Handled.skip {exec : Exec I O}
    (handled : Handled components total done outputs slot answer exec)
    (slots : buffer.slots = (exec.buffer.markSkipped done).slots) :
    Processed components total (done + 1) outputs { exec with buffer := buffer } := by
  have recast : Recast exec { exec with buffer := buffer } :=
    ⟨.refl _, by rw [slots, markSkipped_reads]⟩
  have earlier : buffer.slots.take done = exec.buffer.slots.take done := by
    rw [slots, ChunkBuffer.markSkipped, List.take_modify]
    exact List.modify_eq_self (List.length_take_le _ _)
  have here : buffer.slots[done]? = some { slot with skipped := true } := by
    rw [slots, ChunkBuffer.markSkipped, List.getElem?_modify_eq, handled.here]
    rfl
  have kept : Processed components total done outputs { exec with buffer := buffer } := by
    refine ⟨handled.toAttempting.recast recast, recast.length.trans handled.length, ?_, ?_, ?_⟩
    · rw [earlier]
      exact handled.values
    · rw [earlier]
      exact handled.filtered
    · rw [earlier]
      exact handled.settled
  exact kept.pass here rfl

/-- The slot at `done` is next. -/
structure Next (components : Components) (total done : Nat) (outputs : AttemptOutputs O)
    (slot : ItemSlot I) (exec : Exec I O) : Prop extends Processed components total done outputs exec where
  here : exec.buffer.slots[done]? = some slot
  unskipped : slot.skipped = false

theorem Next.quiet {before after : Exec I O} (next : Next components total done outputs slot before)
    (quiet : Quiet before after) : Next components total done outputs slot after :=
  ⟨next.toProcessed.quiet quiet, by rw [quiet.slots]; exact next.here, next.unskipped⟩

variable (env : Environment I O) (components : Components)

/-- A processor fault that goes on has marked its slot skipped. -/
private theorem processFault_leaves (sequence done : Nat) (slot : ItemSlot I)
    (outputs : AttemptOutputs O)
    (key : Digest) (entered : Nat) (invoked : Invoked (ProcessOutcome O) ProcessorError) :
    Ensures (Handled components total done outputs slot answer)
      (processFault env components sequence done slot.item key entered invoked)
      (UnitLeaves components (Processed components total (done + 1) outputs)) := by
  refine Ensures.bind (quiet_keeps (still_classifyFault env components _ _ _ _ _ _ _)
    Handled.quiet) fun classified => ?_
  split
  · exact Ensures.pure fun _ handled => handled.ledger
  · split
    · exact Ensures.pure fun _ handled => handled.toBuffered
    · refine Ensures.bind (quiet_keeps (mild_still.resolveKey env components key) Handled.quiet)
        fun _ => ?_
      refine Ensures.bind (modifyBuffer_ensures fun _ handled => handled.skip rfl) fun _ => ?_
      refine Ensures.pure fun _ processed => ?_
      split
      · exact processed.toBuffered
      · exact processed
    · exact Ensures.pure fun _ handled => handled.ledger
    · exact Ensures.pure fun _ handled => handled.ledger
    · exact Ensures.pure fun _ handled => handled.ledger

private theorem processOne_leaves (sequence done : Nat) (slot : ItemSlot I)
    (outputs : AttemptOutputs O) :
    Ensures (Next components total done outputs slot)
      (processOne env components sequence done slot outputs)
      (fun result => UnitLeaves components (Processed components total (done + 1) result.2) result.1) := by
  refine Ensures.bind (quiet_keeps (mild_still.attemptStop env components) Next.quiet) fun stop => ?_
  split
  · exact Ensures.pure fun _ next => next.ledger
  · refine Ensures.bind (quiet_keeps mild_still.getBuffer Next.quiet) fun buffer => ?_
    refine Ensures.bind (quiet_keeps (mild_still.beforePass env _) Next.quiet) fun before => ?_
    split
    · exact Ensures.pure fun _ next => next.ledger
    · have processing : Ensures (Next components total done outputs slot)
          (ask env (.process slot.call slot.item))
          (Handled components total done outputs slot) := by
        intro exec next
        exact next.toProcessed.process next.here next.unskipped _
      refine Ensures.bind processing fun answer => ?_
      split
      · refine Ensures.bind (quiet_keeps (still_settleUnit env components _ _ _) Handled.quiet)
          fun ended => ?_
        split
        · exact Ensures.pure fun _ handled => handled.ledger
        · exact Ensures.pure fun _ handled => handled.output _
      · refine Ensures.bind (quiet_keeps (still_settleUnit env components _ _ _) Handled.quiet)
          fun ended => ?_
        split
        · exact Ensures.pure fun _ handled => handled.ledger
        · exact Ensures.pure fun _ handled => handled.filter
      · exact Ensures.pure fun _ handled => handled.ledger
      · refine Ensures.bind (processFault_leaves env components _ _ _ _ _ _ _) fun verdict => ?_
        exact Ensures.pure fun _ leaves => leaves
      · refine Ensures.bind (processFault_leaves env components _ _ _ _ _ _ _) fun verdict => ?_
        exact Ensures.pure fun _ leaves => leaves

/-- Processing that ends towards the commit has settled every buffered slot. -/
private theorem processSlots_leaves (sequence total remaining done : Nat)
    (outputs : AttemptOutputs O)
    (all : done + remaining = total) :
    Ensures (Processed components total done outputs)
      (processSlots env components sequence (List.range' done remaining) outputs)
      (fun result => result.1.Leaves components (Processed components total total result.2)) := by
  induction remaining generalizing done outputs with
  | zero =>
    intro exec processed
    exact (show done = total from all) ▸ processed
  | succ remaining ih =>
    have next : done + 1 + remaining = total := by omega
    refine Ensures.bind getBuffer_ensures fun buffer => ?_
    split
    · rintro exec ⟨rfl, processed⟩
      rename_i missing
      have beyond := List.getElem?_eq_none_iff.mp missing
      have length := processed.length
      exact False.elim (by omega)
    · rename_i slot found
      split
      · rename_i skipped
        refine Ensures.weaken (ih _ _ next) ?_ fun _ _ leaves => leaves
        rintro exec ⟨rfl, processed⟩
        exact processed.pass found skipped
      · rename_i unskipped
        have here : ∀ exec, buffer = exec.buffer ∧ Processed components total done outputs exec →
            Next components total done outputs slot exec := by
          rintro exec ⟨rfl, processed⟩
          exact ⟨processed, found, Bool.eq_false_iff.mpr unskipped⟩
        refine Ensures.weaken ?_ here fun _ _ leaves => leaves
        refine Ensures.bind (processOne_leaves env components _ _ _ _) fun result => ?_
        split
        · exact Ensures.pure fun _ leaves => leaves.verdict
        · exact ih _ _ next

theorem Attempting.processed {exec : Exec I O} (attempting : Attempting components exec) :
    Processed components exec.buffer.slots.length 0 (.new O) exec :=
  ⟨attempting, rfl, rfl, rfl, fun _ member => by cases member⟩

/-- Every buffered slot is settled, and the outputs are theirs. -/
def Settled (components : Components) (outputs : AttemptOutputs O) (exec : Exec I O) : Prop :=
  Processed components exec.buffer.slots.length exec.buffer.slots.length outputs exec

theorem processPhase_leaves (sequence : Nat) :
    Ensures (Attempting components) (processPhase env components sequence)
      (fun result => result.1.Leaves components (Settled components result.2)) := by
  intro exec attempting
  have whole := processSlots_leaves env components sequence exec.buffer.slots.length
    exec.buffer.slots.length 0 (.new O) (Nat.zero_add _) exec attempting.processed
  rw [← List.range_eq_range'] at whole
  refine Verdict.Leaves.mono whole fun processed => ?_
  unfold Settled
  rw [processed.length]
  exact processed

end Process

section Write

/-- The attempt may commit: its batch is written and accounts for every slot. -/
structure Ready (components : Components) (outputs : AttemptOutputs O) (exec : Exec I O) : Prop
    extends Buffered components exec where
  batch : attemptBatch exec.trace = outputs.values
  values : outputs.values = exec.buffer.slots.filterMap (slotOutput exec.trace)
  filtered : outputs.filtered = exec.buffer.slots.countP (slotFiltered exec.trace)
  settled : ∀ slot ∈ exec.buffer.slots, slotSettled exec.trace slot

theorem Settled.quiet {before after : Exec I O} (settled : Settled components outputs before)
    (quiet : Quiet before after) : Settled components outputs after := by
  unfold Settled
  rw [quiet.slots]
  exact Processed.quiet settled quiet

theorem Ready.quiet {before after : Exec I O} (ready : Ready components outputs before)
    (quiet : Quiet before after) : Ready components outputs after := by
  refine ⟨ready.toBuffered.recast quiet.recast, quiet.items.batch.trans ready.batch, ?_, ?_, ?_⟩
  · rw [quiet.slots, funext quiet.items.slotOutput]
    exact ready.values
  · rw [quiet.slots, funext quiet.items.slotFiltered]
    exact ready.filtered
  · intro slot member
    rw [quiet.slots] at member
    exact (quiet.items.slotSettled slot).mpr (ready.settled slot member)

/-- Once the batch stands in the trace, a settled attempt is ready. -/
theorem Settled.ready {before after : Exec I O} (settled : Settled components outputs before)
    (buffered : Buffered components after) (slots : after.buffer.slots = before.buffer.slots)
    (outcomes : ∀ call, lastOutcome after.trace call = lastOutcome before.trace call)
    (batch : attemptBatch after.trace = outputs.values) : Ready components outputs after := by
  have output : slotOutput after.trace = slotOutput before.trace := by
    funext slot
    rw [slotOutput, slotOutput, outcomes]
  have filtered : slotFiltered after.trace = slotFiltered before.trace := by
    funext slot
    rw [slotFiltered, slotFiltered, outcomes]
  refine ⟨buffered, batch, ?_, ?_, ?_⟩
  · have values := settled.values
    rw [List.take_length] at values
    rw [slots, output]
    exact values
  · have counted := settled.filtered
    rw [List.take_length] at counted
    rw [slots, filtered]
    exact counted
  · intro slot member
    have kept := settled.settled
    rw [List.take_length] at kept
    rw [slotSettled, output, filtered]
    exact kept slot (slots ▸ member)

private theorem slotOutput_call (produced : slotOutput trace slot = some value) :
    value.1 = slot.call := by
  unfold slotOutput at produced
  split at produced
  · cases produced
  · split at produced
    · cases produced
      rfl
    · cases produced

theorem Settled.members {exec : Exec I O} (settled : Settled components outputs exec) :
    ∀ value ∈ outputs.values, value.1 ∈ (chunkReads exec.trace).map (·.1) := by
  intro value member
  rw [settled.values, List.take_length] at member
  obtain ⟨slot, buffered, produced⟩ := List.mem_filterMap.mp member
  rw [← settled.reads, slotOutput_call produced, List.map_map]
  exact List.mem_map_of_mem (f := fun slot => slot.call) buffered

/-- What one writer call leaves behind. -/
def AfterWrite (components : Components) (outputs : AttemptOutputs O)
    (answer : Invoked WriteOutcome WriterError) (exec : Exec I O) : Prop :=
  match answer with
  | .completed .written => Ready components outputs exec
  | _ => Attempting components exec

theorem Settled.write {exec : Exec I O} (settled : Settled components outputs exec)
    (answer : Invoked WriteOutcome WriterError) :
    AfterWrite components outputs answer
      { exec with trace := exec.trace ++ [⟨.write outputs.values, answer⟩] } := by
  have reads := chunkReads_snoc exec.trace ⟨.write outputs.values, answer⟩
  have batch := attemptBatch_snoc exec.trace ⟨.write outputs.values, answer⟩
  have outcomes := lastOutcome_snoc exec.trace ⟨.write outputs.values, answer⟩
  have buffered : Buffered components
      { exec with trace := exec.trace ++ [⟨.write outputs.values, answer⟩] } :=
    ⟨settled.ledger.write settled.members answer, settled.reads.trans reads.symm, settled.fits⟩
  cases answer with
  | completed outcome =>
    cases outcome with
    | written => exact settled.ready buffered rfl outcomes batch
    | stopped => exact ⟨buffered, batch.trans settled.unwritten⟩
  | failed error => exact ⟨buffered, batch.trans settled.unwritten⟩
  | panicked => exact ⟨buffered, batch.trans settled.unwritten⟩

variable (env : Environment I O) (components : Components)

private theorem writeFault_leaves (sequence : Nat) (outputs : AttemptOutputs O) (key : Digest)
    (entered : Nat) (invoked : Invoked WriteOutcome WriterError) :
    Ensures (Attempting components) (writeFault env components sequence outputs key entered invoked)
      (fun verdict => verdict.Leaves components (fun _ => False)) := by
  refine Ensures.bind (quiet_keeps (still_classifyFault env components _ _ _ _ _ _ _)
    Attempting.quiet) fun classified => ?_
  split
  · exact Ensures.pure fun _ attempting => attempting.ledger
  · split
    · exact Ensures.pure fun _ attempting => attempting.toBuffered
    · split
      · exact Ensures.pure fun _ attempting => attempting.ledger
      · refine Ensures.bind (quiet_keeps (mild_still.resolveKey env components key) Attempting.quiet)
          fun _ => ?_
        -- a write skip replays the chunk from the same reads
        intro exec attempting
        exact attempting.toBuffered.recast ⟨.refl _, markSkipped_reads _ _⟩
    · exact Ensures.pure fun _ attempting => attempting.ledger
    · exact Ensures.pure fun _ attempting => attempting.ledger
    · exact Ensures.pure fun _ attempting => attempting.ledger

private theorem updateStreams_leaves (outputs : AttemptOutputs O) :
    Ensures (Ready components outputs) (updateStreams env 0 components.streams [])
      (fun result => result.1.Leaves components (Ready components outputs)) := by
  intro exec ready
  have kept := ready.quiet (mild_still.updateStreams env 0 components.streams [] exec).quiet
  cases verdict : (updateStreams env 0 components.streams [] exec).1.1 with
  | commit => exact kept
  | retry request => exact kept.toBuffered
  | replay => exact kept.toBuffered
  | terminal outcome => exact kept.ledger

theorem writePhase_leaves (sequence : Nat) (outputs : AttemptOutputs O) :
    Ensures (Settled components outputs) (writePhase env components sequence outputs)
      (fun result => result.1.Leaves components (Ready components outputs)) := by
  unfold writePhase
  split
  · rename_i empty
    intro exec settled
    refine updateStreams_leaves env components outputs exec ?_
    exact settled.ready settled.toBuffered rfl (fun _ => rfl) (settled.unwritten.trans empty.symm)
  · refine Ensures.bind (quiet_keeps (mild_still.attemptStop env components) Settled.quiet)
      fun stop => ?_
    split
    · exact Ensures.pure fun _ settled => settled.ledger
    · refine Ensures.bind (quiet_keeps mild_still.getBuffer Settled.quiet) fun buffer => ?_
      refine Ensures.bind (quiet_keeps (mild_still.beforePass env _) Settled.quiet) fun before => ?_
      split
      · exact Ensures.pure fun _ settled => settled.ledger
      · refine Ensures.bind (quiet_keeps (still_ask env rfl) Settled.quiet) fun business => ?_
        have writing : Ensures (Settled components outputs) (ask env (.write outputs.values))
            (AfterWrite components outputs) := fun exec settled => settled.write _
        refine Ensures.bind writing fun answer => ?_
        split
        · refine Ensures.bind (quiet_keeps (still_settleUnit env components _ _ _) Ready.quiet)
            fun ended => ?_
          split
          · exact Ensures.pure fun _ ready => ready.ledger
          · exact updateStreams_leaves env components outputs
        · exact Ensures.pure fun _ attempting => attempting.ledger
        · refine Ensures.bind (writeFault_leaves env components _ _ _ _ _) fun verdict => ?_
          exact Ensures.pure fun _ leaves => leaves.mono False.elim
        · refine Ensures.bind (writeFault_leaves env components _ _ _ _ _) fun verdict => ?_
          exact Ensures.pure fun _ leaves => leaves.mono False.elim

end Write

end OxideBatch.Chunk
