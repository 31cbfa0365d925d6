import OxideBatch.Chunk.LoopRule

/-! The invariant rule of an attempt's phases: what the calls of an attempt have to keep for
a property to hold up to its verdict. -/

namespace OxideBatch.Chunk

open OxideBatch.Core Program

variable {I O : Type}

/-- What holds between the calls of an attempt, what its verdicts leave, and what a commit
finds with the component state that is handed over. -/
structure PhaseRule (I O : Type) where
  kept : Exec I O → Prop
  leaves : Verdict → Exec I O → Prop
  ready : List ComponentStateEnvelope → Exec I O → Prop
  step : Exec I O → Exec I O → Prop
  settling : Settling step
  keeps : ∀ before after, kept before → step before after → kept after
  goesOn : ∀ exec, leaves .commit exec ↔ kept exec
  ends : ∀ exec outcome, kept exec → leaves (.terminal outcome) exec

namespace PhaseRule

variable (rule : PhaseRule I O)

/-- A unit goes on, or has a verdict. -/
def unit (verdict : Option Verdict) (exec : Exec I O) : Prop :=
  match verdict with
  | none => rule.kept exec
  | some verdict => rule.leaves verdict exec

/-- Only a commit takes component state along. -/
def written (result : Verdict × List ComponentStateEnvelope) (exec : Exec I O) : Prop :=
  match result.1 with
  | .commit => rule.ready result.2 exec
  | verdict => rule.leaves verdict exec

def body (result : Option (Verdict × AttemptOutputs O × List ComponentStateEnvelope))
    (exec : Exec I O) : Prop :=
  match result with
  | none => rule.kept exec
  | some (verdict, _, componentState) => rule.written (verdict, componentState) exec

theorem along {program : ChunkM I O α} (along : Along rule.step program) :
    Ensures rule.kept program (fun _ => rule.kept) :=
  along.ensures (rule.keeps _ _)

/-- A reader call that failed is left to the fault path. -/
def called (failed : Invoked (ReadOutcome I) ReaderError → Exec I O → Prop)
    (answer : Invoked (ReadOutcome I) ReaderError) (exec : Exec I O) : Prop :=
  match answer with
  | .completed _ => rule.kept exec
  | answer => failed answer exec

variable (env : Environment I O) {components : Components} {sequence : Nat}

theorem readOne (failed : Invoked (ReadOutcome I) ReaderError → Exec I O → Prop)
    (reads : ∀ exec call answer, rule.kept exec →
      rule.called failed answer { exec with trace := exec.trace ++ [⟨.read call, answer⟩] })
    (buffers : ∀ exec buffer, buffer.skips = exec.buffer.skips → rule.kept exec →
      rule.kept { exec with buffer := buffer })
    (fault : ∀ key entered invoked, Ensures (failed invoked)
      (readFault env components sequence key entered invoked) rule.unit) :
    Ensures rule.kept (Chunk.readOne env components sequence) rule.unit := by
  refine Ensures.bind (rule.along rule.settling.getBuffer) fun buffer => ?_
  refine Ensures.bind (rule.along (rule.settling.beforePass env _)) fun before => ?_
  split
  · exact Ensures.pure fun exec kept => rule.ends exec _ kept
  · refine Ensures.bind Ensures.get fun now => ?_
    have reading : Ensures (fun exec => now = exec ∧ rule.kept exec)
        (ask env (.read (readCount now.trace))) (rule.called failed) :=
      fun exec holds => reads exec _ _ holds.2
    refine Ensures.bind reading fun answer => ?_
    split
    · refine Ensures.bind (rule.along (rule.settling.settleUnit env components rfl _ _))
        fun ended => ?_
      split
      · exact Ensures.pure fun exec kept => rule.ends exec _ kept
      · exact fun exec kept => buffers exec _ rfl kept
    · exact fun exec kept => buffers exec _ rfl kept
    · exact Ensures.pure fun exec kept => rule.ends exec _ kept
    · exact fault _ _ _
    · exact fault _ _ _

theorem readPhase (one : Ensures rule.kept (Chunk.readOne env components sequence) rule.unit)
    (fuel : Nat) :
    Ensures rule.kept (Chunk.readPhase env components sequence fuel) rule.unit := by
  induction fuel with
  | zero => exact Ensures.pure fun _ kept => kept
  | succ fuel ih =>
    refine Ensures.bind (rule.along rule.settling.getBuffer) fun buffer => ?_
    split
    · exact Ensures.pure fun exec kept => (rule.goesOn exec).mpr kept
    · refine Ensures.bind (rule.along (rule.settling.policyComplete env components))
        fun complete => ?_
      split
      · exact Ensures.pure fun exec kept => rule.ends exec _ kept
      · exact Ensures.pure fun exec kept => (rule.goesOn exec).mpr kept
      · refine Ensures.bind (rule.along (rule.settling.attemptStop env components)) fun stop => ?_
        split
        · exact Ensures.pure fun exec kept => rule.ends exec _ kept
        · refine Ensures.bind one fun verdict => ?_
          split
          · exact Ensures.pure fun _ leaves => leaves
          · exact ih

theorem processOne {index : Nat} {slot : ItemSlot I} {outputs : AttemptOutputs O}
    (calls : Ensures rule.kept (ask env (.process slot.call slot.item)) fun _ => rule.kept)
    (fault : ∀ key entered invoked, Ensures rule.kept
      (processFault env components sequence index slot.item key entered invoked) rule.unit) :
    Ensures rule.kept (Chunk.processOne env components sequence index slot outputs)
      (fun result => rule.unit result.1) := by
  refine Ensures.bind (rule.along (rule.settling.attemptStop env components)) fun stop => ?_
  split
  · exact Ensures.pure fun exec kept => rule.ends exec _ kept
  · refine Ensures.bind (rule.along rule.settling.getBuffer) fun buffer => ?_
    refine Ensures.bind (rule.along (rule.settling.beforePass env _)) fun before => ?_
    split
    · exact Ensures.pure fun exec kept => rule.ends exec _ kept
    · refine Ensures.bind calls fun answer => ?_
      split
      · refine Ensures.bind (rule.along (rule.settling.settleUnit env components rfl _ _))
          fun ended => ?_
        split
        · exact Ensures.pure fun exec kept => rule.ends exec _ kept
        · exact Ensures.pure fun _ kept => kept
      · refine Ensures.bind (rule.along (rule.settling.settleUnit env components rfl _ _))
          fun ended => ?_
        split
        · exact Ensures.pure fun exec kept => rule.ends exec _ kept
        · exact Ensures.pure fun _ kept => kept
      · exact Ensures.pure fun exec kept => rule.ends exec _ kept
      · exact Ensures.bind (fault _ _ _) fun _ => Ensures.pure fun _ unit => unit
      · exact Ensures.bind (fault _ _ _) fun _ => Ensures.pure fun _ unit => unit

/-- The inputs are processed in turn, up to the first verdict. -/
theorem processPhase
    (one : ∀ index slot outputs, Ensures
      (fun exec => rule.kept exec ∧ slot ∈ exec.buffer.slots)
      (Chunk.processOne env components sequence index slot outputs)
      (fun result => rule.unit result.1)) :
    Ensures rule.kept (Chunk.processPhase env components sequence)
      (fun result => rule.leaves result.1) := by
  have slots : ∀ indices outputs, Ensures rule.kept
      (processSlots env components sequence indices outputs)
      (fun result => rule.leaves result.1) := by
    intro indices
    induction indices with
    | nil => exact fun _ => Ensures.pure fun exec kept => (rule.goesOn exec).mpr kept
    | cons index indices ih =>
      intro outputs
      refine Ensures.bind getBuffer_ensures fun buffer => ?_
      split
      · exact (ih outputs).weaken (fun _ holds => holds.2) fun _ _ leaves => leaves
      · rename_i slot found
        split
        · exact (ih outputs).weaken (fun _ holds => holds.2) fun _ _ leaves => leaves
        · refine Ensures.bind ((one index slot outputs).weaken
            (fun exec holds => ⟨holds.2, holds.1 ▸ List.mem_of_getElem? found⟩)
            fun _ _ unit => unit) fun result => ?_
          split
          · exact Ensures.pure fun _ leaves => leaves
          · exact ih _
  exact Ensures.bind (rule.along rule.settling.getBuffer) fun _ => slots _ _

/-- Candidate states that are of no account. -/
theorem updateStreams (handed : ∀ exec componentState, rule.kept exec →
      rule.ready componentState exec) (index : Nat) (streams : List String)
    (envelopes : List ComponentStateEnvelope) :
    Ensures rule.kept (Chunk.updateStreams env index streams envelopes) rule.written := by
  induction streams generalizing index envelopes with
  | nil => exact Ensures.pure fun exec kept => handed exec _ kept
  | cons identity streams ih =>
    refine Ensures.bind (rule.along (rule.settling.asks env rfl)) fun answer => ?_
    split
    · split
      · exact ih _ _
      · exact Ensures.pure fun exec kept => rule.ends exec _ kept
    · exact Ensures.pure fun exec kept => rule.ends exec _ kept

theorem writePhase {outputs : AttemptOutputs O}
    (calls : Ensures rule.kept (ask env (.write outputs.values)) fun _ => rule.kept)
    (streams : Ensures rule.kept (Chunk.updateStreams env 0 components.streams []) rule.written)
    (fault : ∀ key entered invoked, Ensures rule.kept
      (writeFault env components sequence outputs key entered invoked)
      (fun verdict => rule.written (verdict, []))) :
    Ensures rule.kept (Chunk.writePhase env components sequence outputs) rule.written := by
  unfold Chunk.writePhase
  split
  · exact streams
  · refine Ensures.bind (rule.along (rule.settling.attemptStop env components)) fun stop => ?_
    split
    · exact Ensures.pure fun exec kept => rule.ends exec _ kept
    · refine Ensures.bind (rule.along rule.settling.getBuffer) fun buffer => ?_
      refine Ensures.bind (rule.along (rule.settling.beforePass env _)) fun before => ?_
      split
      · exact Ensures.pure fun exec kept => rule.ends exec _ kept
      · refine Ensures.bind (rule.along (rule.settling.asks env rfl)) fun _ => ?_
        refine Ensures.bind calls fun answer => ?_
        split
        · refine Ensures.bind (rule.along (rule.settling.settleUnit env components rfl _ _))
            fun ended => ?_
          split
          · exact Ensures.pure fun exec kept => rule.ends exec _ kept
          · exact streams
        · exact Ensures.pure fun exec kept => rule.ends exec _ kept
        · exact Ensures.bind (fault _ _ _) fun _ => Ensures.pure fun _ written => written
        · exact Ensures.bind (fault _ _ _) fun _ => Ensures.pure fun _ written => written

/-- What the phases reach, the whole body of an attempt reaches. -/
theorem attemptBody
    (read : ∀ fuel, Ensures rule.kept (Chunk.readPhase env components sequence fuel) rule.unit)
    (process : Ensures rule.kept (Chunk.processPhase env components sequence)
      (fun result => rule.leaves result.1))
    (write : ∀ outputs, Ensures rule.kept (Chunk.writePhase env components sequence outputs)
      rule.written)
    (began : Bool) (fuel : Nat) :
    Ensures rule.kept (Chunk.attemptBody env components began sequence fuel) rule.body := by
  unfold Chunk.attemptBody
  split
  · exact Ensures.pure fun exec kept => rule.ends exec _ kept
  · refine Ensures.bind (rule.along (rule.settling.lacksCapability env components)) fun lacks => ?_
    split
    · exact Ensures.pure fun exec kept => rule.ends exec _ kept
    · refine Ensures.bind (read fuel) fun verdict => ?_
      split
      · exact Ensures.pure fun _ kept => kept
      · refine Ensures.weaken ?_ (fun exec => (rule.goesOn exec).mp) fun _ _ body => body
        refine Ensures.bind (rule.along rule.settling.getBuffer) fun buffer => ?_
        split
        · exact Ensures.pure fun exec kept => rule.ends exec _ kept
        · refine Ensures.bind process fun result => ?_
          split
          · refine Ensures.weaken ?_ (fun exec => (rule.goesOn exec).mp) fun _ _ body => body
            exact Ensures.bind (write _) fun _ => Ensures.pure fun _ written => written
          · rename_i verdict outputs otherwise
            cases verdict with
            | commit => exact absurd rfl otherwise
            | _ => exact Ensures.pure fun _ leaves => leaves
      · rename_i verdict otherwise
        cases verdict with
        | commit => exact absurd rfl otherwise
        | _ => exact Ensures.pure fun _ leaves => leaves

end PhaseRule

end OxideBatch.Chunk
