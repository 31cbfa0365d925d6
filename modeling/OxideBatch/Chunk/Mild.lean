import OxideBatch.Chunk.Loop
import OxideBatch.Lib.Program

/-! Mild programs: the helpers of the chunk runtime that decide nothing about an attempt.
Whatever relation their single steps move along, they move along it as a whole. -/

namespace OxideBatch.Chunk

open OxideBatch.Core Program

variable {I O : Type}

/-- A pass that tells listeners of a fault before it is classified. -/
def ItemPass.isError : ItemPass I O → Bool
  | .readError _ | .processError _ _ | .writeError _ _ => true
  | _ => false

/-- The totals a report is made of. -/
structure Tally where
  counts : ChunkCounts
  chunks : Nat
  skips : SkipCounts
  deriving DecidableEq

def ExecutionState.tally (state : ExecutionState) : Tally :=
  ⟨state.committedCounts, state.committedChunks, state.skipCounts⟩

/-- Calls that neither move an attempt nor report its end, and touch no item. -/
def Query.isMild : Query I O → Bool
  | .stop | .before _ | .beforeChunk _ _ | .businessTransaction | .reservedOrdinal _ | .sleep _
  | .policyIsComplete _ | .afterCommit _ _ | .updateStream _ => true
  | .emit (.started _) | .emit (.unknown _) | .emit (.fault _) => true
  | .after pass _ => !pass.isError
  | _ => false

/-- A relation that every single mild step moves along. -/
structure Mild (step : Exec I O → Exec I O → Prop) : Prop where
  refl : ∀ exec, step exec exec
  trans : ∀ {first second third}, step first second → step second third → step first third
  ask : ∀ exec (query : Query I O) (answer : query.Answer), query.isMild = true →
    step exec { exec with trace := exec.trace ++ [⟨query, answer⟩] }
  state : ∀ exec (state : ExecutionState), state.tally = exec.state.tally →
    step exec { exec with state := state }
  retry : ∀ exec (retry : Option PendingRetry),
    step exec { exec with buffer := { exec.buffer with retry := retry } }

/-- A mild relation that the resolution of a key moves along as well. -/
structure Settling (step : Exec I O → Exec I O → Prop) : Prop extends Mild step where
  resolve : ∀ exec key, step exec { exec with trace := exec.trace ++ [⟨.resolve key, ()⟩] }

namespace Mild

variable {step : Exec I O → Exec I O → Prop} (mild : Mild step)

include mild

theorem pure (value : α) : Along step (pure value : ChunkM I O α) := Along.pure mild.refl value

theorem bind {program : ChunkM I O α} {next : α → ChunkM I O β} (first : Along step program)
    (second : ∀ value, Along step (next value)) : Along step (program >>= next) :=
  Along.bind mild.trans first second

theorem getBuffer : Along step (getBuffer : ChunkM I O _) := mild.refl

theorem getState : Along step (getState : ChunkM I O _) := mild.refl

theorem modifyState {change : ExecutionState → ExecutionState}
    (same : ∀ state, (change state).tally = state.tally) :
    Along step (modifyState change : ChunkM I O Unit) :=
  fun exec => mild.state exec _ (same exec.state)

variable (env : Environment I O) (components : Components)

theorem asks {query : Query I O} (quiet : query.isMild = true) : Along step (Chunk.ask env query) :=
  fun exec => mild.ask exec query _ quiet

theorem emit {event : ChunkRuntimeEvent} (quiet : (Query.emit event : Query I O).isMild = true) :
    Along step (emit env event) :=
  mild.bind (mild.asks env quiet) fun _ => mild.pure ()

theorem stopRequested : Along step (stopRequested env) := mild.asks env rfl

theorem attemptStop : Along step (attemptStop env components) := by
  unfold Chunk.attemptStop
  split
  · exact mild.pure false
  · exact mild.stopRequested env

theorem recordPass (failures : List ItemListenerFailure) :
    Along step (recordPass failures : ChunkM I O _) := by
  cases failures with
  | nil => exact mild.pure none
  | cons first rest => exact mild.bind (mild.modifyState fun _ => rfl) fun _ => mild.pure _

theorem completeRetry (key : Digest) (outcome : RetryOutcome) :
    Along step (completeRetry env key outcome) := by
  refine mild.bind mild.getBuffer fun buffer => ?_
  split
  · exact mild.pure none
  · split
    · refine mild.bind (fun exec => mild.retry exec none) fun _ => ?_
      exact mild.bind (mild.asks env rfl) fun failures => mild.recordPass failures
    · exact mild.pure none

theorem descriptor (phase : FaultPhase) (category : FailureCategory) :
    Along step (descriptor components phase category : ChunkM I O _) := by
  refine mild.bind mild.getState fun state => mild.bind mild.getBuffer fun buffer => ?_
  split
  · exact mild.pure none
  · refine mild.bind (mild.modifyState fun _ => rfl) fun _ => mild.bind mild.getState fun later => ?_
    dsimp only
    split
    · exact mild.pure none
    · exact mild.pure _

theorem withReservedOrdinal (key : Digest) (fault : FaultDescriptor) :
    Along step (withReservedOrdinal env components key fault) := by
  unfold Chunk.withReservedOrdinal
  split
  · exact mild.pure fault
  · exact mild.bind (mild.asks env rfl) fun _ => mild.pure _

theorem classify (key : Digest) (fault : FaultDescriptor) (evidence : FaultEvidence)
    (sequence : Nat) : Along step (classify env components key fault evidence sequence) := by
  refine mild.bind mild.getBuffer fun buffer => mild.bind ?_ fun ended => ?_
  · split
    · exact mild.completeRetry env key .failed
    · exact mild.pure none
  · split
    · exact mild.pure _
    · split
      · exact mild.pure _
      · dsimp only
        split
        · refine mild.bind (mild.emit env rfl) fun _ => mild.bind (mild.asks env rfl) fun _ => ?_
          refine mild.bind (mild.recordPass _) fun failed => ?_
          split
          · exact mild.pure _
          · exact mild.pure _
        · exact mild.pure _

/-- A classification is mild but for the listeners that are told of the fault. -/
theorem classifyFault (tells : ∀ pass entered, Along step (Chunk.ask env (.after pass entered)))
    (phase : FaultPhase) (category : FailureCategory) (key : Digest)
    (pass : FaultDescriptor → ItemPass I O) (entered : Nat) (evidence : FaultEvidence)
    (sequence : Nat) :
    Along step (classifyFault env components phase category key pass entered evidence
      sequence) := by
  refine mild.bind (mild.descriptor components phase category) fun found => ?_
  split
  · exact mild.pure _
  · refine mild.bind (mild.withReservedOrdinal env components key _) fun fault => ?_
    refine mild.bind (tells _ _) fun _ => mild.bind (mild.recordPass _) fun failed => ?_
    split
    · exact mild.pure _
    · refine mild.bind (mild.classify env components key fault evidence sequence) fun answer => ?_
      split
      · exact mild.pure _
      · exact mild.pure _

theorem beforePass (pass : ItemPass I O) : Along step (beforePass env pass) := by
  refine mild.bind (mild.asks env rfl) fun before => ?_
  split
  · exact mild.pure _
  · exact mild.bind (mild.recordPass _) fun _ => mild.pure _

theorem policyComplete : Along step (policyComplete env components) := by
  refine mild.bind mild.getBuffer fun buffer => ?_
  exact Along.ite (mild.asks env rfl) (mild.pure _)

theorem updateStreams (index : Nat) (streams : List String)
    (envelopes : List ComponentStateEnvelope) :
    Along step (updateStreams env index streams envelopes) := by
  induction streams generalizing index envelopes with
  | nil => exact mild.pure _
  | cons identity streams ih =>
    refine mild.bind (mild.asks env rfl) fun answer => ?_
    split
    · split
      · exact ih _ _
      · exact mild.pure _
    · exact mild.pure _

theorem skipCallbacks (buffer : ChunkBuffer I O) (skips : List (PendingSkip O)) :
    Along step (skipCallbacks env buffer skips) := by
  have quiet : ∀ skip : PendingSkip O, (Query.after (skipPass buffer skip) 0).isMild = true := by
    intro skip
    unfold skipPass
    split <;> rfl
  induction skips with
  | nil => exact mild.pure none
  | cons skip skips ih =>
    refine mild.bind (mild.asks env (quiet skip)) fun _ => ?_
    refine mild.bind (mild.recordPass _) fun failed => ?_
    split
    · exact mild.pure _
    · exact ih

theorem lacksCapability : Along step (lacksCapability env components) := by
  unfold Chunk.lacksCapability
  split
  · exact mild.pure _
  · split
    · exact mild.bind (mild.asks env rfl) fun _ => mild.pure _
    · exact mild.pure _

theorem runBeforeListeners (sequence : Nat) (indices : List Nat) :
    Along step (runBeforeListeners env sequence indices) := by
  induction indices with
  | nil => exact mild.pure none
  | cons index indices ih =>
    refine mild.bind (mild.asks env rfl) fun answer => ?_
    split
    · exact mild.pure _
    · exact ih

theorem reportWith (outcome : ChunkExecutionOutcome) (original : Option ChunkExecutionOutcome) :
    Along step (reportWith outcome original : ChunkM I O _) :=
  mild.bind mild.getState fun _ => mild.pure _

theorem emitCommittedSkips (sequence : Nat) (skips : List (PendingSkip O)) :
    Along step (emitCommittedSkips env sequence skips : ChunkM I O Unit) := by
  induction skips with
  | nil => exact mild.pure ()
  | cons skip skips ih =>
    refine mild.bind (mild.emit env rfl) fun _ => ?_
    split
    · exact mild.bind (mild.emit env rfl) fun _ => ih
    · exact mild.bind (mild.pure ()) fun _ => ih

theorem completionOutcome (receipt : CommitReceipt) (counts : ChunkCounts) (endOfInput : Bool) :
    Along step (completionOutcome env receipt counts endOfInput) := by
  refine mild.bind (mild.asks env rfl) fun answer => ?_
  split
  · refine mild.bind (mild.stopRequested env) fun stop => ?_
    split
    · exact mild.pure _
    · split
      · exact mild.pure _
      · exact mild.pure _
  · exact mild.pure _
  · exact mild.pure _
  · exact mild.pure _

end Mild

namespace Settling

variable {step : Exec I O → Exec I O → Prop} (settling : Settling step)

include settling

variable (env : Environment I O) (components : Components)

theorem resolveKey (key : Digest) : Along step (resolveKey env components key) := by
  unfold Chunk.resolveKey
  split
  · exact settling.pure ()
  · exact settling.bind (fun exec => settling.resolve exec key) fun _ => settling.pure ()

theorem settles {pass : ItemPass I O} {entered : Nat}
    (tells : Along step (ask env (.after pass entered))) (key : Digest) :
    Along step (settleUnit env components pass entered key) := by
  refine settling.bind tells fun _ => ?_
  refine settling.bind (settling.recordPass _) fun failed => ?_
  split
  · exact settling.pure _
  · refine settling.bind (settling.completeRetry env key .recovered) fun ended => ?_
    split
    · exact settling.pure _
    · exact settling.bind (settling.resolveKey env components key) fun _ => settling.pure none

theorem settleUnit {pass : ItemPass I O} (success : pass.isError = false) (entered : Nat)
    (key : Digest) : Along step (settleUnit env components pass entered key) :=
  settling.settles env components
    (settling.asks env (by simp [Query.isMild, success])) key

end Settling

end OxideBatch.Chunk
