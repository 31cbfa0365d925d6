import OxideBatch.Chunk.LoopRule

/-! The invariant of the chunk runtime: the ledger that every prefix of a run
keeps, and the buffer that agrees with it between attempts. -/

namespace OxideBatch.Chunk

open OxideBatch.Core Program

variable {I O : Type}

/-- Every prefix of a run: sound so far, with the open chunk's reader calls in
order and apart from the committed ones. -/
structure Ledger (trace : Trace I O) : Prop where
  sound : Sound trace
  ascending : ((chunkReads trace).map (·.1)).Pairwise (· < ·)
  openBelow : ∀ call ∈ (chunkReads trace).map (·.1), call < readCount trace
  openFresh : ∀ call ∈ (chunkReads trace).map (·.1), call ∉ committedCalls trace
  closedBelow : ∀ call ∈ committedCalls trace, call < readCount trace

theorem Ledger.start : Ledger ([] : Trace I O) :=
  ⟨sound_nil, .nil, by simp [chunkReads], by simp [chunkReads], by simp [committedCalls]⟩

theorem Ledger.same {before after : Trace I O} (ledger : Ledger before)
    (same : SameItems before after) : Ledger after := by
  refine ⟨same.sound ledger.sound, ?_, ?_, ?_, ?_⟩
  · rw [same.reads]
    exact ledger.ascending
  · rw [same.reads, same.count]
    exact ledger.openBelow
  · rw [same.reads, same.committed]
    exact ledger.openFresh
  · rw [same.committed, same.count]
    exact ledger.closedBelow

/-- An event that leaves the reads and the commits alone keeps the ledger. -/
theorem Ledger.snoc {trace : Trace I O} (ledger : Ledger trace) (here : SoundAt trace event)
    (reads : chunkReads (trace ++ [event]) = chunkReads trace)
    (committed : committedCalls (trace ++ [event]) = committedCalls trace)
    (count : readCount (trace ++ [event]) = readCount trace) : Ledger (trace ++ [event]) := by
  refine ⟨ledger.sound.snoc here, ?_, ?_, ?_, ?_⟩
  · rw [reads]
    exact ledger.ascending
  · rw [reads, count]
    exact ledger.openBelow
  · rw [reads, committed]
    exact ledger.openFresh
  · rw [committed, count]
    exact ledger.closedBelow

theorem Ledger.read {trace : Trace I O} (ledger : Ledger trace)
    (answer : Invoked (ReadOutcome I) ReaderError) :
    Ledger (trace ++ [⟨.read (readCount trace), answer⟩]) := by
  have committed : committedCalls (trace ++ [⟨.read (readCount trace), answer⟩]) =
      committedCalls trace := committedCalls_snoc _ _
  have count : readCount (trace ++ [⟨.read (readCount trace), answer⟩]) = readCount trace + 1 :=
    readCount_snoc _ _
  have reads : (chunkReads (trace ++ [⟨.read (readCount trace), answer⟩])).map (·.1) =
        (chunkReads trace).map (·.1) ∨
      (chunkReads (trace ++ [⟨.read (readCount trace), answer⟩])).map (·.1) =
        (chunkReads trace).map (·.1) ++ [readCount trace] := by
    rw [chunkReads_snoc]
    cases answer with
    | completed outcome =>
      cases outcome with
      | item item => exact .inr (by simp [chunkReadsStep])
      | endOfInput => exact .inl rfl
      | stopped => exact .inl rfl
    | failed error => exact .inl rfl
    | panicked => exact .inl rfl
  have fresh : readCount trace ∉ committedCalls trace := fun member =>
    Nat.lt_irrefl _ (ledger.closedBelow _ member)
  refine ⟨ledger.sound.snoc rfl, ?_, ?_, ?_, ?_⟩
  · rcases reads with same | added
    · rw [same]
      exact ledger.ascending
    · rw [added, List.pairwise_append]
      exact ⟨ledger.ascending, List.pairwise_singleton _ _, by simpa using ledger.openBelow⟩
  · intro call member
    rw [count]
    rcases reads with same | added
    · exact Nat.lt_succ_of_lt (ledger.openBelow call (same ▸ member))
    · rw [added, List.mem_append, List.mem_singleton] at member
      rcases member with old | new
      · exact Nat.lt_succ_of_lt (ledger.openBelow call old)
      · exact new ▸ Nat.lt_succ_self _
  · intro call member
    rw [committed]
    rcases reads with same | added
    · exact ledger.openFresh call (same ▸ member)
    · rw [added, List.mem_append, List.mem_singleton] at member
      rcases member with old | new
      · exact ledger.openFresh call old
      · exact new ▸ fresh
  · intro call member
    rw [count]
    exact Nat.lt_succ_of_lt (ledger.closedBelow call (committed ▸ member))

theorem Ledger.process {trace : Trace I O} (ledger : Ledger trace)
    (member : (call, input) ∈ chunkReads trace)
    (answer : Invoked (ProcessOutcome O) ProcessorError) :
    Ledger (trace ++ [⟨.process call input, answer⟩]) := by
  refine ledger.snoc ⟨member, ?_⟩ (chunkReads_snoc _ _) (committedCalls_snoc _ _)
    (readCount_snoc _ _)
  exact ledger.openFresh call (List.mem_map_of_mem member)

theorem Ledger.write {trace : Trace I O} {batch : List (Nat × O)} (ledger : Ledger trace)
    (members : ∀ value ∈ batch, value.1 ∈ (chunkReads trace).map (·.1))
    (answer : Invoked WriteOutcome WriterError) : Ledger (trace ++ [⟨.write batch, answer⟩]) := by
  refine ledger.snoc ?_ (chunkReads_snoc _ _) (committedCalls_snoc _ _) (readCount_snoc _ _)
  intro value member
  exact ⟨members value member, ledger.openFresh _ (members value member)⟩

theorem Ledger.begin {trace : Trace I O} (ledger : Ledger trace)
    (answer : Except TransactionError Unit) : Ledger (trace ++ [⟨.begin, answer⟩]) :=
  ledger.snoc trivial (chunkReads_snoc _ _) (committedCalls_snoc _ _) (readCount_snoc _ _)

/-- A successful commit closes the chunk: its reads move to the committed ones. -/
theorem Ledger.commit {trace : Trace I O} (ledger : Ledger trace)
    (accounted : Accounted trace counts slots) (progress : ChunkFaultProgress)
    (componentState : List ComponentStateEnvelope) (answer : Except TransactionError CommitReceipt) :
    Ledger (trace ++ [⟨.commit counts progress componentState slots, answer⟩]) := by
  cases answer with
  | error failure =>
    exact ledger.snoc accounted (chunkReads_snoc _ _) (committedCalls_snoc _ _) (readCount_snoc _ _)
  | ok receipt =>
    have closed := chunkReads_snoc trace
      ⟨.commit counts progress componentState slots, .ok receipt⟩
    have calls : slots.map (·.call) = (chunkReads trace).map (·.1) := by
      rw [← accounted.reads, List.map_map]
      rfl
    refine ⟨ledger.sound.snoc accounted, ?_, ?_, ?_, ?_⟩
    · rw [closed]
      exact .nil
    · rw [closed]
      intro call member
      cases member
    · rw [closed]
      intro call member
      cases member
    · intro call member
      rw [committedCalls_snoc, committedCallsStep, calls, List.mem_append] at member
      rw [readCount_snoc]
      rcases member with old | new
      · exact ledger.closedBelow call old
      · exact ledger.openBelow call new

/-- The buffer holds the items of the open chunk and fits the chunk size. -/
structure Buffered (components : Components) (exec : Exec I O) : Prop where
  ledger : Ledger exec.trace
  reads : exec.buffer.slots.map ItemSlot.read = chunkReads exec.trace
  fits : exec.buffer.slots.length ≤ components.size.get

/-- Inside an attempt that has written nothing. -/
structure Attempting (components : Components) (exec : Exec I O) : Prop
    extends Buffered components exec where
  unwritten : attemptBatch exec.trace = []

/-- The step changed no item projection and at most the skip marks of slots. -/
structure Recast (before after : Exec I O) : Prop where
  items : SameItems before.trace after.trace
  reads : after.buffer.slots.map ItemSlot.read = before.buffer.slots.map ItemSlot.read

theorem Quiet.recast {before after : Exec I O} (quiet : Quiet before after) :
    Recast before after :=
  ⟨quiet.items, by rw [quiet.slots]⟩

theorem Recast.length {before after : Exec I O} (recast : Recast before after) :
    after.buffer.slots.length = before.buffer.slots.length := by
  simpa using congrArg List.length recast.reads

theorem Buffered.recast {before after : Exec I O} (buffered : Buffered components before)
    (recast : Recast before after) : Buffered components after := by
  refine ⟨buffered.ledger.same recast.items, ?_, ?_⟩
  · rw [recast.reads, recast.items.reads]
    exact buffered.reads
  · rw [recast.length]
    exact buffered.fits

theorem Attempting.recast {before after : Exec I O} (attempting : Attempting components before)
    (recast : Recast before after) : Attempting components after :=
  ⟨attempting.toBuffered.recast recast, recast.items.batch.trans attempting.unwritten⟩

theorem markSkipped_reads (buffer : ChunkBuffer I O) (index : Nat) :
    (buffer.markSkipped index).slots.map ItemSlot.read = buffer.slots.map ItemSlot.read := by
  apply List.ext_getElem?
  intro position
  simp only [ChunkBuffer.markSkipped, List.getElem?_map, List.getElem?_modify]
  cases found : buffer.slots[position]? with
  | none => simp
  | some slot =>
    by_cases here : index = position
    · simp [here, ItemSlot.read]
    · simp [here]

end OxideBatch.Chunk
