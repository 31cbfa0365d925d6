import OxideBatch.Chunk.Loop
import OxideBatch.Lib.History

/-! What a trace says about the items of a chunk: which reader calls the open
chunk holds, what the last processing of each produced, which batch the open
attempt has written, and when a commit accounts for all of it. -/

namespace OxideBatch.Chunk

open OxideBatch.Core

variable {I O : Type}

/-- Calls that neither move items nor open or commit a transaction. -/
def Query.isSide : Query I O → Bool
  | .read _ | .process _ _ | .write _ | .begin | .commit _ _ _ _ => false
  | _ => true

def chunkReadsStep (reads : List (Nat × I)) (event : Event I O) : List (Nat × I) :=
  match event with
  | ⟨.read call, .completed (.item item)⟩ => reads ++ [(call, item)]
  | ⟨.commit _ _ _ _, .ok _⟩ => []
  | _ => reads

/-- The items the reader returned since the last successful commit, each with the
number of its reader call. -/
def chunkReads (trace : Trace I O) : List (Nat × I) := trace.foldl chunkReadsStep []

/-- The reader call and item a slot buffers. -/
def ItemSlot.read (slot : ItemSlot I) : Nat × I := (slot.call, slot.item)

def attemptBatchStep (batch : List (Nat × O)) (event : Event I O) : List (Nat × O) :=
  match event with
  | ⟨.begin, _⟩ => []
  | ⟨.write values, .completed .written⟩ => values
  | _ => batch

/-- The batch written since the last begin. -/
def attemptBatch (trace : Trace I O) : List (Nat × O) := trace.foldl attemptBatchStep []

def lastOutcomeStep (call : Nat) (outcome : Option (Invoked (ProcessOutcome O) ProcessorError))
    (event : Event I O) : Option (Invoked (ProcessOutcome O) ProcessorError) :=
  match event with
  | ⟨.process other _, answer⟩ => if other = call then some answer else outcome
  | _ => outcome

/-- What the last processing of an item answered. -/
def lastOutcome (trace : Trace I O) (call : Nat) :
    Option (Invoked (ProcessOutcome O) ProcessorError) :=
  trace.foldl (lastOutcomeStep call) none

def committedCallsStep (calls : List Nat) (event : Event I O) : List Nat :=
  match event with
  | ⟨.commit _ _ _ slots, .ok _⟩ => calls ++ slots.map (·.call)
  | _ => calls

/-- Reader calls whose items a successful commit covered. -/
def committedCalls (trace : Trace I O) : List Nat := trace.foldl committedCallsStep []

/-- The output an unskipped slot contributes to the batch. -/
def slotOutput (trace : Trace I O) (slot : ItemSlot I) : Option (Nat × O) :=
  if slot.skipped then none
  else
    match lastOutcome trace slot.call with
    | some (.completed (.item output)) => some (slot.call, output)
    | _ => none

def slotFiltered (trace : Trace I O) (slot : ItemSlot I) : Bool :=
  !slot.skipped &&
    match lastOutcome trace slot.call with
    | some (.completed .filtered) => true
    | _ => false

/-- A slot is skipped, or its last processing produced an output or a filter
decision. -/
def slotSettled (trace : Trace I O) (slot : ItemSlot I) : Prop :=
  slot.skipped = true ∨ (slotOutput trace slot).isSome = true ∨ slotFiltered trace slot = true

/-- A commit accounts for the open chunk: the buffered slots are the items read
since the last commit, each once and in read order; every slot is skipped, filtered,
or has an output; the written batch is the last output of every slot that has one,
in read order; and the counts partition the slots. -/
structure Accounted (trace : Trace I O) (counts : ChunkCounts) (slots : List (ItemSlot I)) :
    Prop where
  reads : slots.map ItemSlot.read = chunkReads trace
  once : ((chunkReads trace).map (·.1)).Nodup
  settled : ∀ slot ∈ slots, slotSettled trace slot
  batch : attemptBatch trace = slots.filterMap (slotOutput trace)
  read : counts.read = slots.length
  processed : counts.processed = (attemptBatch trace).length
  written : counts.written = (attemptBatch trace).length
  filtered : counts.filtered = slots.countP (slotFiltered trace)
  total : counts.processed + counts.filtered + slots.countP (·.skipped) = counts.read

/-- What conservation demands of one event after a trace: reader calls are numbered
in order, only items of the open chunk are processed or written, none of them was
committed before, and every commit accounts for the chunk. -/
def SoundAt (trace : Trace I O) (event : Event I O) : Prop :=
  match event.query with
  | .read call => call = readCount trace
  | .process call input => (call, input) ∈ chunkReads trace ∧ call ∉ committedCalls trace
  | .write batch => ∀ value ∈ batch,
      value.1 ∈ (chunkReads trace).map (·.1) ∧ value.1 ∉ committedCalls trace
  | .commit counts _ _ slots => Accounted trace counts slots
  | _ => True

/-- Every event of the trace is sound after the events before it. -/
def Sound (trace : Trace I O) : Prop :=
  ∀ before event after, trace = before ++ event :: after → SoundAt before event

theorem sound_nil : Sound ([] : Trace I O) := Lib.throughout_nil

theorem Sound.snoc {trace : Trace I O} (sound : Sound trace) (here : SoundAt trace event) :
    Sound (trace ++ [event]) := Lib.Throughout.snoc sound here

section Snoc

variable (trace : Trace I O) (event : Event I O)

theorem chunkReads_snoc :
    chunkReads (trace ++ [event]) = chunkReadsStep (chunkReads trace) event := by
  simp [chunkReads]

theorem attemptBatch_snoc :
    attemptBatch (trace ++ [event]) = attemptBatchStep (attemptBatch trace) event := by
  simp [attemptBatch]

theorem lastOutcome_snoc (call : Nat) :
    lastOutcome (trace ++ [event]) call = lastOutcomeStep call (lastOutcome trace call) event := by
  simp [lastOutcome]

theorem lastOutcome_process (answer : Invoked (ProcessOutcome O) ProcessorError) :
    lastOutcome (trace ++ [⟨.process call input, answer⟩]) other =
      if call = other then some answer else lastOutcome trace other :=
  lastOutcome_snoc _ _ _

theorem committedCalls_snoc :
    committedCalls (trace ++ [event]) = committedCallsStep (committedCalls trace) event := by
  simp [committedCalls]

theorem readCount_snoc :
    readCount (trace ++ [event]) = readCount trace + if event.isRead then 1 else 0 := by
  simp [readCount]

end Snoc

/-- The projections of a trace that a side call leaves alone. -/
structure SameItems (before after : Trace I O) : Prop where
  reads : chunkReads after = chunkReads before
  batch : attemptBatch after = attemptBatch before
  outcomes : ∀ call, lastOutcome after call = lastOutcome before call
  committed : committedCalls after = committedCalls before
  count : readCount after = readCount before
  sound : Sound before → Sound after

theorem SameItems.refl (trace : Trace I O) : SameItems trace trace :=
  ⟨rfl, rfl, fun _ => rfl, rfl, rfl, id⟩

theorem SameItems.trans {first second third : Trace I O} (left : SameItems first second)
    (right : SameItems second third) : SameItems first third :=
  ⟨right.reads.trans left.reads, right.batch.trans left.batch,
    fun call => (right.outcomes call).trans (left.outcomes call),
    right.committed.trans left.committed, right.count.trans left.count,
    fun sound => right.sound (left.sound sound)⟩

theorem SameItems.snoc (trace : Trace I O) (event : Event I O)
    (side : event.query.isSide = true) : SameItems trace (trace ++ [event]) := by
  obtain ⟨query, answer⟩ := event
  have silent : SoundAt trace ⟨query, answer⟩ := by
    cases query <;> trivial
  refine ⟨?_, ?_, fun call => ?_, ?_, ?_, fun sound => sound.snoc silent⟩
  · rw [chunkReads_snoc]
    cases query <;> first | rfl | cases side
  · rw [attemptBatch_snoc]
    cases query <;> first | rfl | cases side
  · rw [lastOutcome_snoc]
    cases query <;> first | rfl | cases side
  · rw [committedCalls_snoc]
    cases query <;> first | rfl | cases side
  · rw [readCount_snoc]
    cases query <;> first | rfl | cases side

theorem SameItems.slotOutput {before after : Trace I O} (same : SameItems before after)
    (slot : ItemSlot I) : Chunk.slotOutput after slot = Chunk.slotOutput before slot := by
  simp [Chunk.slotOutput, same.outcomes]

theorem SameItems.slotFiltered {before after : Trace I O} (same : SameItems before after)
    (slot : ItemSlot I) : Chunk.slotFiltered after slot = Chunk.slotFiltered before slot := by
  simp [Chunk.slotFiltered, same.outcomes]

theorem SameItems.slotSettled {before after : Trace I O} (same : SameItems before after)
    (slot : ItemSlot I) : Chunk.slotSettled after slot ↔ Chunk.slotSettled before slot := by
  simp [Chunk.slotSettled, same.slotOutput, same.slotFiltered]

end OxideBatch.Chunk
