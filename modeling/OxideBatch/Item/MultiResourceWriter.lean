import OxideBatch.Item.MultiResource
import OxideBatch.Lib.Restarts

/-! The multi-resource writer: over every run of writes, updates, and restarts each batch
lands whole in the resource that the rollover policy says, one delegate stream at a time. -/

namespace OxideBatch.Item.MultiResource.Writer

open OxideBatch.Core OxideBatch.Lib Triple Handover

section Calls

/-- Whether to roll over behind so many batches in the current resource. -/
abbrev RolloverPolicy := Nat → Bool

/-- `BatchCountRollover`. -/
def batchCountRollover (maxBatchesPerResource : Nat) : RolloverPolicy :=
  fun resourceBatchesWritten => decide (maxBatchesPerResource ≤ resourceBatchesWritten)

structure ActiveWriteResource where
  index : Nat
  stream : Nat
  batchesWritten : Nat
  retired : Bool
  deriving DecidableEq

inductive WriterState where
  | active (resource : ActiveWriteResource)
  | poisoned (category : FailureCategory)
  deriving DecidableEq

/-- What the writer shares with its stream, and beside it what the delegates have taken
during a call, each batch with its resource. -/
structure WriterShared (Batch : Type) where
  active : Option WriterState
  taken : List (Nat × Batch)

/-- Before the stream has opened. -/
def WriterShared.new {Batch : Type} : WriterShared Batch := ⟨none, []⟩

/-- `WriterError::with_category`. -/
def withCategory (category : FailureCategory) : WriterError := ⟨category, none⟩

variable {Batch ε : Type}

abbrev WriterCall (Batch ε α : Type) := Fallible (Attempt (WriterShared Batch)) ε α

def setActive (active : WriterState) : WriterCall Batch ε Unit :=
  change fun shared => { shared with active := some active }

/-- A delegate that has taken a batch. -/
def took (attempt : Attempt (WriterShared Batch)) (number : Nat) (batch : Batch) :
    Attempt (WriterShared Batch) :=
  { attempt.moved number with
    component := { attempt.component with
      taken := attempt.component.taken ++ [((attempt.delegate number).resource, batch)] } }

/-- `writer.write` of a delegate, which takes a batch whole. -/
def delegateWrite (number : Nat) (batch : Batch) : WriterCall Batch WriterError WriteOutcome := do
  match ← draw with
  | .fails category => throw (withCategory category)
  | .stops => pure .stopped
  | _ => do
    modify fun attempt => took attempt number batch
    pure .written

/-- Closes the stream of a resource that is left; a failure is the end of the writer. -/
def retire (resource : ActiveWriteResource) : WriterCall Batch WriterError Unit := do
  let failed ← streamClose resource.stream .resourceBoundary
  setActive (.active { resource with retired := true })
  match failed with
  | none => pure ()
  | some category => do
    setActive (.poisoned category)
    throw (withCategory category)

/-- The next index, a `u32` that wraps where overflow is not checked. -/
def nextIndex (index : Nat) : Nat := (index + 1) % 2 ^ 32

/-- Takes up the resource behind one whose stream is closed. -/
def goOn (resource : ActiveWriteResource) : WriterCall Batch WriterError Unit := do
  let number ← takeUp withCategory (nextIndex resource.index)
  setActive (.active ⟨nextIndex resource.index, number, 0, false⟩)

/-- The rollover to the next resource. -/
def rollOver (resource : ActiveWriteResource) : WriterCall Batch WriterError Unit := do
  if resource.retired then goOn resource
  else do
    retire resource
    goOn resource

/-- Writes to the current resource. -/
def writeCurrent (batch : Batch) : WriterCall Batch WriterError WriteOutcome := do
  match (← component).active with
  | some (.active resource) => do
    let outcome ← delegateWrite resource.stream batch
    if outcome = .written then do
      setActive (.active { resource with batchesWritten := resource.batchesWritten + 1 })
      pure outcome
    else pure outcome
  | _ => throw (withCategory .invariant)

variable (resources : ResourceSet) (policy : RolloverPolicy)

/-- Whether a batch goes to the next resource; the last one is kept. -/
def rolls (index batches : Nat) : Bool :=
  policy batches && decide (nextIndex index < resources.resources.length)

/-- `MultiResourceWriter::write`. -/
def write (stopRequested : Bool) (batch : Batch) : WriterCall Batch WriterError WriteOutcome := do
  if stopRequested then pure .stopped
  else if resources.resources.isEmpty then throw (withCategory .invariant)
  else match (← component).active with
    | some (.poisoned category) => throw (withCategory category)
    | some (.active resource) => do
      if rolls resources policy resource.index resource.batchesWritten then do
        rollOver resource
        writeCurrent batch
      else writeCurrent batch
    | none => throw (withCategory .invariant)

/-- `MultiResourceWriterStream::open`; its failures by their category. -/
def openStream (identity : String) (inherited : Option MultiResourceState) :
    WriterCall Batch FailureCategory StreamOpenOutcome := do
  let outcome := if inherited.isSome then .restored else .initial
  let index := (inherited.map (·.resourceIndex)).getD 0
  if inherited.any (·.resourceSetRevision ≠ resources.revision) then throw .unsupportedCapability
  else if resources.ordinals ≤ index then throw .invariant
  else do
    let number ← resumeDelegate id identity index (inherited.bind (·.delegate))
    setActive (.active ⟨index, number, (inherited.map (·.resourceBatchesWritten)).getD 0, false⟩)
    pure outcome

/-- `MultiResourceWriterStream::update`. -/
def update (identity : String) : WriterCall Batch FailureCategory MultiResourceState := do
  match (← component).active with
  | some (.active resource) =>
    embed id identity resources resource.index resource.stream resource.batchesWritten
  | some (.poisoned category) => throw category
  | none => throw .invariant

/-- `MultiResourceWriterStream::close`. -/
def close (outcome : StreamRuntimeOutcome) : WriterCall Batch FailureCategory Unit := do
  match (← component).active with
  | some (.active resource) =>
    if resource.retired then pure () else closeStream id resource.stream outcome
  | _ => pure ()

end Calls

section Places

variable {Batch : Type}

/-- The resource of the next batch, and how many batches lie there with it. -/
def advance (policy : RolloverPolicy) (count : Nat) (place : Nat × Nat) : Nat × Nat :=
  if policy place.2 && decide (place.1 + 1 < count) then (place.1 + 1, 1)
  else (place.1, place.2 + 1)

/-- The resource of the last of so many batches, and how many lie there. -/
def placeAfter (policy : RolloverPolicy) (count : Nat) : Nat → Nat × Nat
  | 0 => (0, 0)
  | batches + 1 => advance policy count (placeAfter policy count batches)

/-- Each batch lies where the policy has it. -/
def Placed (policy : RolloverPolicy) (count : Nat) (written : List (Nat × Batch)) : Prop :=
  ∀ (number : Nat) (resource : Nat) (batch : Batch), written[number]? = some (resource, batch) →
    resource = (placeAfter policy count (number + 1)).1

private theorem placed_nil (policy : RolloverPolicy) (count : Nat) :
    Placed policy count ([] : List (Nat × Batch)) := by
  intro number resource batch found
  cases found

theorem Placed.snoc {policy : RolloverPolicy} {count resource : Nat} {batch : Batch}
    {written : List (Nat × Batch)} (placed : Placed policy count written)
    (next : resource = (placeAfter policy count (written.length + 1)).1) :
    Placed policy count (written ++ [(resource, batch)]) := by
  intro number other batch' found
  rcases Nat.lt_or_ge number written.length with within | beyond
  · rw [List.getElem?_append_left within] at found
    exact placed number other batch' found
  · rw [List.getElem?_append_right beyond] at found
    obtain ⟨here, same⟩ := List.getElem?_eq_some_iff.mp found
    have last : number = written.length := by
      simp only [List.length_singleton] at here
      omega
    subst last
    simp only [Nat.sub_self, List.getElem_cons_zero] at same
    obtain ⟨rfl, _⟩ := Prod.mk.inj same
    exact next

/-- Where a fixed number of batches goes to each resource but the last. -/
private theorem batchCount_place {maxBatches count : Nat} (counts : 0 < maxBatches)
    (batches : Nat) :
    let place := placeAfter (batchCountRollover maxBatches) count (batches + 1)
    place.1 ≤ count - 1 ∧ place.1 * maxBatches + place.2 = batches + 1 ∧ 0 < place.2 ∧
      (place.1 + 1 < count → place.2 ≤ maxBatches) := by
  induction batches with
  | zero =>
    have first : placeAfter (batchCountRollover maxBatches) count (0 + 1) = (0, 1) := by
      simp [placeAfter, advance, batchCountRollover]
      omega
    rw [first]
    exact ⟨Nat.zero_le _, by simp, by simp, fun _ => counts⟩
  | succ batches ih =>
    obtain ⟨known, total, started, bounded⟩ := ih
    have next : placeAfter (batchCountRollover maxBatches) count (batches + 1 + 1) =
        advance (batchCountRollover maxBatches) count
          (placeAfter (batchCountRollover maxBatches) count (batches + 1)) := rfl
    rw [next]
    generalize placeAfter (batchCountRollover maxBatches) count (batches + 1) = place at *
    dsimp only
    unfold advance batchCountRollover
    split
    · rename_i rolled
      obtain ⟨full, more⟩ := Bool.and_eq_true_iff.mp rolled
      have full := of_decide_eq_true full
      have more := of_decide_eq_true more
      have exact_count := Nat.le_antisymm (bounded more) full
      refine ⟨Nat.le_sub_one_of_lt more, ?_, Nat.one_pos, fun _ => counts⟩
      change (place.1 + 1) * maxBatches + 1 = batches + 1 + 1
      rw [Nat.succ_mul]
      omega
    · rename_i kept
      have more_total : place.1 * maxBatches + (place.2 + 1) = batches + 1 + 1 := by omega
      refine ⟨known, more_total, Nat.succ_pos _, fun more => ?_⟩
      have more_places : decide (place.1 + 1 < count) = true := decide_eq_true more
      rw [more_places, Bool.and_true, decide_eq_true_eq] at kept
      omega

/-- Behind a fixed number of batches the next resource is taken, up to the last one. -/
theorem batchCount_resource {maxBatches count : Nat} (counts : 0 < maxBatches)
    (batches : Nat) :
    (placeAfter (batchCountRollover maxBatches) count (batches + 1)).1 =
      min (batches / maxBatches) (count - 1) := by
  obtain ⟨known, total, started, bounded⟩ := @batchCount_place _ count counts batches
  generalize placeAfter (batchCountRollover maxBatches) count (batches + 1) = place at *
  by_cases more : place.1 + 1 < count
  · have within := bounded more
    have quotient : batches / maxBatches = place.1 := by
      refine Nat.div_eq_of_lt_le (by omega) ?_
      rw [Nat.succ_mul]
      omega
    omega
  · have reached : place.1 ≤ batches / maxBatches :=
      (Nat.le_div_iff_mul_le counts).mpr (by omega)
    omega

end Places

variable {Batch : Type} {resources : ResourceSet} {policy : RolloverPolicy}
  {attempt after : Attempt (WriterShared Batch)} {written : List (Nat × Batch)}

section Stages

/-- Where a writer stands: its resource by index, the number of its delegate, and how many
batches lie there. -/
inductive Phase where
  | writing (index number batches : Nat)
  | between (index number batches : Nat)
  | poisoned (category : FailureCategory)

def Phase.state : Phase → WriterState
  | writing index number batches => .active ⟨index, number, batches, false⟩
  | between index number batches => .active ⟨index, number, batches, true⟩
  | poisoned category => .poisoned category

/-- The stream in use. -/
def Phase.current : Phase → Option Nat
  | writing _ number _ => some number
  | _ => none

/-- A resource with so many batches, and its delegate; from there the next batch comes to its
place, unless the policy leaves resources empty. -/
structure Lies (resources : ResourceSet) (policy : RolloverPolicy) (streams : List Stream)
    (index number batches : Nat) (written : List (Nat × Batch)) : Prop where
  known : index < resources.resources.length
  place : policy 0 = false → advance policy resources.resources.length (index, batches) =
    placeAfter policy resources.resources.length (written.length + 1)
  found : ∃ stream, streams[number]? = some stream ∧ stream.state = ⟨index, batches⟩

def Phase.Lies (resources : ResourceSet) (policy : RolloverPolicy) (streams : List Stream)
    (written : List (Nat × Batch)) : Phase → Prop
  | writing index number batches =>
    Writer.Lies resources policy streams index number batches written
  | between index number batches =>
    Writer.Lies resources policy streams index number batches written ∧
      rolls resources policy index batches = true
  | poisoned _ => resources.resources.isEmpty = false

/-- What holds of a writer in a phase, once some batches are written. -/
structure Stage (resources : ResourceSet) (policy : RolloverPolicy)
    (attempt : Attempt (WriterShared Batch)) (phase : Phase) (written : List (Nat × Batch)) :
    Prop where
  state : attempt.component.active = some phase.state
  held : Held attempt.streams phase.current
  lies : phase.Lies resources policy attempt.streams written
  placed : policy 0 = false → Placed policy resources.resources.length written
  boundary : ∀ stream ∈ attempt.streams, ∀ category,
    (StreamRuntimeOutcome.resourceBoundary, some category) ∈ stream.closings →
      phase = .poisoned category

/-- What a write leads to; one that nothing disturbs writes its batch, and a batch written is not
the last. -/
structure Writes (resources : ResourceSet) (policy : RolloverPolicy) (calm : Prop) (batch : Batch)
    (written : List (Nat × Batch))
    (result : Except WriterError WriteOutcome × Attempt (WriterShared Batch)) : Prop where
  stage : ∃ phase, Stage resources policy result.2 phase (written ++ result.2.component.taken) ∧
    (result.1 = .ok .written → ∀ category, phase ≠ .poisoned category)
  whole : result.1 = .ok .written ∧ (∃ resource, result.2.component.taken = [(resource, batch)]) ∨
    result.1 ≠ .ok .written ∧ result.2.component.taken = []
  goesOn : calm → result.1 = .ok .written

end Stages

section Steps

theorem occupied {index : Nat} (known : index < resources.resources.length) :
    resources.resources.isEmpty = false := by
  cases stored : resources.resources with
  | nil =>
    rw [stored] at known
    cases known
  | cons first rest => rfl

theorem nextIndex_eq (fits : resources.resources.length < 2 ^ 32) {index : Nat}
    (known : index < resources.resources.length) : nextIndex index = index + 1 :=
  Nat.mod_eq_of_lt (by omega)

/-- Of resources that can all be numbered, the last is kept. -/
theorem rolls_eq (fits : resources.resources.length < 2 ^ 32) {index : Nat}
    (known : index < resources.resources.length) (batches : Nat) :
    rolls resources policy index batches =
      (policy batches && decide (index + 1 < resources.resources.length)) := by
  unfold rolls
  rw [nextIndex_eq fits known]

theorem Stage.waits {phase : Phase} (stage : Stage resources policy attempt phase written)
    (waits : Waits attempt after) : Stage resources policy after phase written := by
  have lies : ∀ {index number batches : Nat},
      Lies resources policy attempt.streams index number batches written →
        Lies resources policy after.streams index number batches written := by
    rintro index number batches ⟨known, place, stream, found, state⟩
    exact ⟨known, place, stream, waits.found found, state⟩
  refine ⟨(congrArg _ waits.component).trans stage.state, waits.held stage.held, ?_, stage.placed,
    ?_⟩
  · have holds := stage.lies
    cases phase with
    | writing index number batches => exact lies holds
    | between index number batches => exact ⟨lies holds.1, holds.2⟩
    | poisoned category => exact holds
  · intro stream member category closed
    rcases waits.closings member with old | never
    · exact stage.boundary stream old category closed
    · rw [never] at closed
      cases closed

variable {calm : Prop} {batch : Batch}

/-- A write that has taken nothing. -/
theorem Writes.nothing {phase : Phase} {answer : Except WriterError WriteOutcome} {result}
    (answered : result = (answer, after)) (stage : Stage resources policy after phase written)
    (idle : after.component.taken = []) (refused : answer ≠ .ok .written) (rough : ¬ calm) :
    Writes resources policy calm batch written result := by
  subst answered
  exact ⟨⟨phase, by rw [idle, List.append_nil]; exact stage, fun done => absurd done refused⟩,
    .inr ⟨refused, idle⟩, fun holds => absurd holds rough⟩

theorem Writes.imp {calm' : Prop} {result}
    (writes : Writes resources policy calm batch written result) (stronger : calm' → calm) :
    Writes resources policy calm' batch written result :=
  ⟨writes.stage, writes.whole, fun holds => writes.goesOn (stronger holds)⟩

/-- The delegate in use takes a batch. -/
theorem Stage.took {index number batches : Nat} (fits : resources.resources.length < 2 ^ 32)
    (stage : Stage resources policy attempt (.writing index number batches) written)
    (idle : attempt.component.taken = [])
    (keeps : policy 0 = false → rolls resources policy index batches = false) :
    (took attempt number batch).component.taken = [(index, batch)] ∧
      Stage resources policy
        { took attempt number batch with
          component := { (took attempt number batch).component with
            active := some (.active ⟨index, number, batches + 1, false⟩) } }
        (.writing index number (batches + 1)) (written ++ [(index, batch)]) := by
  obtain ⟨known, place, stream, found, state⟩ := stage.lies
  have next : policy 0 = false → placeAfter policy resources.resources.length
      (written.length + 1) = (index, batches + 1) := fun fresh =>
    (place fresh).symm.trans
      (if_neg (Bool.eq_false_iff.mp ((rolls_eq fits known batches).symm.trans (keeps fresh))))
  refine ⟨?_, rfl, stage.held.moves _, ⟨known, fun fresh => ?_, ?_⟩,
    fun fresh => (stage.placed fresh).snoc (by rw [next fresh]), ?_⟩
  · change attempt.component.taken ++ [((attempt.delegate number).resource, batch)] = _
    rw [idle, delegate_eq found, state]
    rfl
  · rw [List.length_append, List.length_singleton, placeAfter, next fresh]
  · refine ⟨stream.move fun delegate => { delegate with position := delegate.position + 1 }, ?_, ?_⟩
    · exact moved_found found
    · change { stream.state with position := stream.state.position + 1 } = _
      rw [state]
  · intro other member category closed
    obtain ⟨before, earlier, same⟩ := @moved_closings _ attempt _ _ member
    cases stage.boundary before earlier category (same ▸ closed)

/-- A delegate takes the batch, or it is disturbed. -/
theorem delegateWrite_cases (number : Nat) (batch : Batch) :
    runs (delegateWrite number batch) attempt = (.ok .written, took attempt.drawn number batch) ∨
      ∃ answer, runs (delegateWrite number batch) attempt = (answer, attempt.drawn) ∧
        answer ≠ .ok .written ∧ ¬ attempt.Calm := by
  unfold delegateWrite
  rw [runs_bind, runs_draw]
  dsimp only
  have rough {hitch : Hitch} (next : attempt.script.head?.getD .fine = hitch)
      (hitches : hitch ≠ .fine) : ¬ attempt.Calm :=
    fun calm => hitches (next.symm.trans calm.head)
  cases next : attempt.script.head?.getD .fine with
  | fine => exact .inl rfl
  | fails category => exact .inr ⟨_, rfl, by simp, rough next (by simp)⟩
  | stops => exact .inr ⟨_, rfl, by simp, rough next (by simp)⟩
  | misnamed other => exact .inl rfl

/-- A write to the resource in use. -/
private theorem writeCurrent_writes {index number batches : Nat}
    (fits : resources.resources.length < 2 ^ 32)
    (stage : Stage resources policy attempt (.writing index number batches) written)
    (idle : attempt.component.taken = [])
    (keeps : policy 0 = false → rolls resources policy index batches = false) :
    Writes resources policy attempt.Calm batch written (runs (writeCurrent batch) attempt) := by
  have drawn := stage.waits (.drawn attempt)
  obtain ⟨taken, moved⟩ := @Stage.took _ _ _ _ _ batch _ _ _ fits drawn idle keeps
  unfold writeCurrent
  rw [runs_bind, runs_component]
  dsimp only
  rw [stage.state]
  dsimp only [Phase.state]
  rw [runs_bind]
  rcases @delegateWrite_cases _ attempt number batch with took | ⟨answer, refused, other, rough⟩
  · rw [took]
    refine ⟨⟨.writing index number (batches + 1), ?_, by simp⟩, .inl ⟨rfl, index, taken⟩,
      fun _ => rfl⟩
    exact taken ▸ moved
  · rw [refused]
    rcases answer with failure | outcome
    · exact .nothing rfl drawn idle (by simp) rough
    · cases outcome with
      | written => exact absurd rfl other
      | stopped => exact .nothing rfl drawn idle (by simp) rough

/-- A stream that has been closed at the boundary of its resource. -/
theorem Stage.closed {index number batches : Nat} {failed : Option FailureCategory}
    (stage : Stage resources policy attempt (.writing index number batches) written) :
    Held (attempt.closed number (.resourceBoundary, failed)).streams none ∧
      Lies resources policy (attempt.closed number (.resourceBoundary, failed)).streams index number
        batches written ∧
      ∀ stream ∈ (attempt.closed number (.resourceBoundary, failed)).streams, ∀ category,
        (StreamRuntimeOutcome.resourceBoundary, some category) ∈ stream.closings →
          failed = some category := by
  obtain ⟨known, place, stream, found, state⟩ := stage.lies
  refine ⟨stage.held.closes _,
    ⟨known, place, stream.close (.resourceBoundary, failed), closed_found found _, state⟩, ?_⟩
  intro other member category closed
  rcases mem_closed_closings member closed with now | ⟨before, earlier, already⟩
  · exact (Prod.mk.inj now).2.symm
  · cases stage.boundary before earlier category already

/-- The resource in use is left: its stream is closed, and a failure is the last word. -/
theorem retire_cases {index number batches : Nat}
    (stage : Stage resources policy attempt (.writing index number batches) written)
    (idle : attempt.component.taken = []) (leaves : rolls resources policy index batches = true) :
    (∃ after, runs (retire ⟨index, number, batches, false⟩) attempt = (.ok (), after) ∧
      Stage resources policy after (.between index number batches) written ∧
      after.component.taken = [] ∧ (attempt.Calm → after.Calm)) ∨
    ∃ category after, runs (retire ⟨index, number, batches, false⟩) attempt =
        (.error (withCategory category), after) ∧
      Stage resources policy after (.poisoned category) written ∧ after.component.taken = [] ∧
      ¬ attempt.Calm := by
  have drawn := stage.waits (.drawn attempt)
  obtain ⟨failed, closes, calmly⟩ :=
    @streamClose_runs _ WriterError attempt number .resourceBoundary
  obtain ⟨held, lies, boundary⟩ := @Stage.closed _ _ _ _ _ _ _ _ failed drawn
  unfold retire
  rw [runs_bind, closes]
  dsimp only
  cases failed with
  | none =>
    refine .inl ⟨_, rfl, ⟨rfl, held, ⟨lies, leaves⟩, stage.placed,
      fun stream member category closed => ?_⟩, idle, fun calm => calm.drawn⟩
    cases boundary stream member category closed
  | some category =>
    refine .inr ⟨category, _, rfl, ⟨rfl, held, occupied lies.known, stage.placed,
      fun stream member other closed => ?_⟩, idle, fun calm => (by cases calmly calm)⟩
    rw [Option.some.inj (boundary stream member other closed)]

/-- The next resource is taken up, which a failure leaves to be done. -/
private theorem goOn_cases {index number batches : Nat} {resource : ActiveWriteResource}
    (fits : resources.resources.length < 2 ^ 32)
    (stage : Stage resources policy attempt (.between index number batches) written)
    (idle : attempt.component.taken = []) (same : resource.index = index) :
    (∃ after number', runs (goOn resource) attempt = (.ok (), after) ∧
      Stage resources policy after (.writing (index + 1) number' 0) written ∧
      after.component.taken = [] ∧ (attempt.Calm → after.Calm)) ∨
    ∃ category after, runs (goOn resource) attempt = (.error (withCategory category), after) ∧
      Stage resources policy after (.between index number batches) written ∧
      after.component.taken = [] ∧ ¬ attempt.Calm := by
  subst same
  obtain ⟨lies, leaves⟩ := stage.lies
  unfold goOn
  rw [nextIndex_eq fits lies.known, runs_bind]
  rcases @takeUp_cases _ _ withCategory attempt (resource.index + 1) with
    ⟨after, done, taken, calmly⟩ | ⟨category, after, failed, waits, rough⟩
  · rw [done]
    obtain ⟨stream, found, state⟩ := taken.found
    rw [rolls_eq fits lies.known] at leaves
    have more := of_decide_eq_true (Bool.and_eq_true_iff.mp leaves).2
    refine .inl ⟨_, _, rfl, ⟨rfl, taken.held stage.held,
      ⟨more, fun fresh => ?_, stream, found, state⟩, stage.placed, ?_⟩,
      (congrArg WriterShared.taken taken.component).trans idle, calmly⟩
    · rw [← lies.place fresh]
      unfold advance
      rw [fresh, Bool.false_and, if_neg Bool.false_ne_true]
      exact (if_pos leaves).symm
    · intro other member category closed
      rcases taken.closings other member with old | never
      · cases stage.boundary other old category closed
      · rw [never] at closed
        cases closed
  · rw [failed]
    exact .inr ⟨category, after, rfl, stage.waits waits,
      (congrArg WriterShared.taken waits.component).trans idle, rough⟩

private theorem rolls_fresh (fresh : policy 0 = false) (index : Nat) :
    rolls resources policy index 0 = false := by
  unfold rolls
  rw [fresh, Bool.false_and]

/-- The rollover from a resource whose stream may be closed already. -/
private theorem rollOver_cases {index number batches : Nat} {retired : Bool} {phase : Phase}
    (fits : resources.resources.length < 2 ^ 32)
    (stage : Stage resources policy attempt phase written)
    (idle : attempt.component.taken = []) (leaves : rolls resources policy index batches = true)
    (here : phase.state = .active ⟨index, number, batches, retired⟩) :
    (∃ after number', runs (rollOver ⟨index, number, batches, retired⟩) attempt = (.ok (), after) ∧
      Stage resources policy after (.writing (index + 1) number' 0) written ∧
      after.component.taken = [] ∧ (attempt.Calm → after.Calm)) ∨
    ∃ category after next, runs (rollOver ⟨index, number, batches, retired⟩) attempt =
        (.error (withCategory category), after) ∧
      Stage resources policy after next written ∧ after.component.taken = [] ∧ ¬ attempt.Calm := by
  unfold rollOver
  cases phase with
  | writing index' number' batches' =>
    cases here
    rw [if_neg Bool.false_ne_true, runs_bind]
    rcases retire_cases stage idle leaves with
      ⟨middle, left, between, idle', calmly⟩ | ⟨category, after, failed, poisoned, idle', rough⟩
    · rw [left]
      rcases @goOn_cases _ _ _ _ _ _ _ _ ⟨index, number, batches, false⟩ fits between
        idle' rfl with
        ⟨after, number', done, writing, idle'', calmly'⟩ |
        ⟨category, after, failed, between', idle'', rough⟩
      · exact .inl ⟨after, number', done, writing, idle'', fun calm => calmly' (calmly calm)⟩
      · exact .inr ⟨category, after, _, failed, between', idle'', fun calm => rough (calmly calm)⟩
    · rw [failed]
      exact .inr ⟨category, after, _, rfl, poisoned, idle', rough⟩
  | between index' number' batches' =>
    cases here
    rw [if_pos rfl]
    rcases @goOn_cases _ _ _ _ _ _ _ _ ⟨index, number, batches, true⟩ fits stage idle rfl with
      done | ⟨category, after, failed, between, idle', rough⟩
    · exact .inl done
    · exact .inr ⟨category, after, _, failed, between, idle', rough⟩
  | poisoned category => cases here

/-- The batch goes to the next resource. -/
private theorem rollOver_writes {index number batches : Nat} {retired : Bool} {phase : Phase}
    (fits : resources.resources.length < 2 ^ 32)
    (stage : Stage resources policy attempt phase written)
    (idle : attempt.component.taken = []) (leaves : rolls resources policy index batches = true)
    (here : phase.state = .active ⟨index, number, batches, retired⟩) :
    Writes resources policy attempt.Calm batch written
      (runs (rollOver ⟨index, number, batches, retired⟩ >>= fun _ => writeCurrent batch)
        attempt) := by
  rw [runs_bind]
  rcases rollOver_cases fits stage idle leaves here with
    ⟨after, number', done, writing, idle', calmly⟩ |
    ⟨category, after, next, failed, stays, idle', rough⟩
  · rw [done]
    exact (writeCurrent_writes fits writing idle' fun fresh => rolls_fresh fresh _).imp calmly
  · rw [failed]
    exact .nothing rfl stays idle' (by simp) rough

/-- Every write of an attempt that runs. -/
theorem write_writes {phase : Phase} (fits : resources.resources.length < 2 ^ 32)
    (stage : Stage resources policy attempt phase written) (idle : attempt.component.taken = [])
    (stopRequested : Bool) :
    Writes resources policy
      (attempt.Calm ∧ stopRequested = false ∧
        ∀ category, attempt.component.active ≠ some (.poisoned category))
      batch written (runs (write resources policy stopRequested batch) attempt) := by
  unfold write
  cases stopRequested with
  | true => exact .nothing rfl stage idle (by simp) fun calm => (by cases calm.2.1)
  | false =>
    rw [if_neg Bool.false_ne_true]
    cases phase with
    | writing index number batches =>
      have some_resources := occupied stage.lies.known
      rw [if_neg (Bool.eq_false_iff.mp some_resources), runs_bind, runs_component]
      dsimp only
      rw [stage.state]
      dsimp only [Phase.state]
      cases leaves : rolls resources policy index batches with
      | false => exact (writeCurrent_writes fits stage idle fun _ => leaves).imp And.left
      | true =>
        rw [if_pos rfl]
        exact (rollOver_writes fits stage idle leaves rfl).imp And.left
    | between index number batches =>
      have some_resources := occupied stage.lies.1.known
      rw [if_neg (Bool.eq_false_iff.mp some_resources), runs_bind, runs_component]
      dsimp only
      rw [stage.state]
      dsimp only [Phase.state]
      rw [stage.lies.2, if_pos rfl]
      exact (rollOver_writes fits stage idle stage.lies.2 rfl).imp And.left
    | poisoned category =>
      have final : ¬ (attempt.Calm ∧ false = false ∧
          ∀ category, attempt.component.active ≠ some (.poisoned category)) :=
        fun calm => calm.2.2 category stage.state
      split
      · exact .nothing rfl stage idle (by simp) final
      · rw [runs_bind, runs_component]
        dsimp only
        rw [stage.state]
        exact .nothing rfl stage idle (by simp) fun calm => calm.2.2 category rfl

end Steps

section Saved

variable {identity : String} {phase : Phase}

/-- A state stands for what had been written when it was saved, and is of these resources. -/
structure Restores (resources : ResourceSet) (policy : RolloverPolicy) (identity : String)
    (state : MultiResourceState) (written : List (Nat × Batch)) : Prop where
  revision : state.resourceSetRevision = resources.revision
  delegate : state.delegate = some ⟨identity, state.resourceBatchesWritten⟩
  known : state.resourceIndex < resources.resources.length
  place : policy 0 = false → advance policy resources.resources.length
      (state.resourceIndex, state.resourceBatchesWritten) =
    placeAfter policy resources.resources.length (written.length + 1)
  placed : policy 0 = false → Placed policy resources.resources.length written

/-- A result that leaves the writer in its phase, and whose state restores what has been
written. -/
def Saves (resources : ResourceSet) (policy : RolloverPolicy) (identity : String) (phase : Phase)
    (written : List (Nat × Batch))
    (result : Except FailureCategory MultiResourceState × Attempt (WriterShared Batch)) : Prop :=
  Stage resources policy result.2 phase written ∧
    ∀ state, result.1 = .ok state → Restores resources policy identity state written

theorem embed_saves {index number batches : Nat}
    (stage : Stage resources policy attempt phase written)
    (lies : Lies resources policy attempt.streams index number batches written) :
    Saves resources policy identity phase written
      (runs (embed id identity resources index number batches) attempt) := by
  obtain ⟨known, place, stream, found, state⟩ := lies
  obtain ⟨after, waits, ⟨failure, failed⟩ | saved⟩ :=
    @embed_cases _ _ id attempt identity resources index batches number stream found
  · rw [failed]
    exact ⟨stage.waits waits, fun state same => by cases same⟩
  · rw [saved]
    refine ⟨stage.waits waits, fun state' same => ?_⟩
    obtain rfl := Except.ok.inj same
    exact ⟨rfl, by rw [state], known, place, stage.placed⟩

theorem update_saves (stage : Stage resources policy attempt phase written) :
    Saves resources policy identity phase written
      (runs (update resources identity) attempt) := by
  have holds := stage.lies
  unfold update
  rw [runs_bind, runs_component]
  dsimp only
  rw [stage.state]
  cases phase with
  | writing index number batches => exact embed_saves stage holds
  | between index number batches => exact embed_saves stage holds.1
  | poisoned category => exact ⟨stage, fun state same => by cases same⟩

/-- A close leaves no stream in use. -/
theorem close_rests (stage : Stage resources policy attempt phase written)
    (outcome : StreamRuntimeOutcome) : Held (runs (close outcome) attempt).2.streams none := by
  have held := stage.held
  unfold close
  rw [runs_bind, runs_component]
  dsimp only
  rw [stage.state]
  cases phase with
  | writing index number batches =>
    obtain ⟨failed, closed⟩ := @closeStream_leaves _ FailureCategory id attempt number outcome
    change Held (runs (closeStream id number outcome) attempt).2.streams none
    rw [closed]
    exact held.closes _
  | between index number batches => exact held
  | poisoned category => exact held

/-- A fresh writer opens where a state has it, or at the start; or it is disturbed, and
nothing is open. -/
theorem openStream_opens (fits : resources.resources.length < 2 ^ 32) (script : List Hitch)
    (inherited : Option MultiResourceState) (fresh : inherited = none → written = [])
    (restored : ∀ state, inherited = some state →
      Restores resources policy identity state written) :
    (∃ outcome after phase, runs (openStream resources identity inherited)
        ⟨[], script, (WriterShared.new : WriterShared Batch)⟩ = (.ok outcome, after) ∧
      Stage resources policy after phase written) ∨
    ∃ failure after, runs (openStream resources identity inherited)
        ⟨[], script, (WriterShared.new : WriterShared Batch)⟩ = (.error failure, after) ∧
      Held after.streams none ∧ (inherited.isSome = true → script ≠ []) := by
  unfold openStream
  dsimp only
  split
  · rename_i other
    cases inherited with
    | none => cases other
    | some state => exact absurd (restored state rfl).revision (of_decide_eq_true other)
  split
  · rename_i beyond
    refine .inr ⟨_, _, rfl, held_nil, fun inherits => ?_⟩
    obtain ⟨state, rfl⟩ := Option.isSome_iff_exists.mp inherits
    have known := (restored state rfl).known
    rw [← ordinals_eq fits] at known
    exact absurd beyond (Nat.not_le.mpr known)
  · rename_i within
    rw [ordinals_eq fits] at within
    rw [runs_bind]
    rcases @resumeDelegate_cases _ _ id ⟨[], script, (WriterShared.new : WriterShared Batch)⟩
      identity ((inherited.map (·.resourceIndex)).getD 0) (inherited.bind (·.delegate)) with
      ⟨after, done, taken⟩ | ⟨failure, after, failed, waits, rough⟩
    · rw [done]
      obtain ⟨stream, found, stands⟩ := taken.found
      refine .inl ⟨_, _, .writing ((inherited.map (·.resourceIndex)).getD 0) 0
        ((inherited.map (·.resourceBatchesWritten)).getD 0), rfl, rfl, taken.held held_nil,
        ⟨Nat.not_le.mp within, ?_, stream, found, ?_⟩, ?_, ?_⟩
      · cases inherited with
        | none =>
          rw [fresh rfl]
          exact fun _ => rfl
        | some state => exact (restored state rfl).place
      · rw [stands]
        cases inherited with
        | none => rfl
        | some state =>
          change Delegate.mk _ ((state.delegate.map _).getD 0) = _
          rw [(restored state rfl).delegate]
          rfl
      · cases inherited with
        | none =>
          rw [fresh rfl]
          exact fun _ => placed_nil _ _
        | some state => exact (restored state rfl).placed
      · intro other member category closed
        rcases taken.closings other member with old | never
        · cases old
        · rw [never] at closed
          cases closed
    · rw [failed]
      refine .inr ⟨_, _, rfl, waits.held held_nil, fun inherits => rough fun columns held => ?_⟩
      obtain ⟨state, rfl, inner⟩ := Option.bind_eq_some_iff.mp held
      rw [(restored state rfl).delegate] at inner
      obtain rfl := Option.some.inj inner
      rfl

end Saved

section Runs

open Restarts

/-- A call of `write`: whether a stop is requested, the batch, and how the calls it makes go. -/
structure WriteRequest (Batch : Type) where
  stopRequested : Bool
  batch : Batch
  script : List Hitch

/-- What a call answers, and what the delegates have taken in it. -/
abbrev WriteAnswer (Batch : Type) := Except WriterError WriteOutcome × List (Nat × Batch)

/-- An attempt in front of a call. -/
def called (attempt : Attempt (WriterShared Batch)) (script : List Hitch) :
    Attempt (WriterShared Batch) :=
  { attempt with script, component := { attempt.component with taken := [] } }

variable (resources policy)

/-- The writer with its stream, as a component that is restarted; its history is what lies
in the resources. -/
def writerComponent (identity : String) :
    Component (Attempt (WriterShared Batch)) MultiResourceState (WriteRequest Batch)
      (WriteAnswer Batch) (List Hitch × StreamRuntimeOutcome) (List (Nat × Batch)) where
  begins circumstance inherited :=
    let result := runs (openStream resources identity inherited) ⟨[], circumstance.1, .new⟩
    (result.2, result.1.isOk)
  call request attempt :=
    let result := runs (write resources policy request.stopRequested request.batch)
      (called attempt request.script)
    ((result.1, result.2.component.taken), result.2)
  save circumstance attempt :=
    let result := runs (update resources identity) { attempt with script := circumstance.1 }
    (result.1.toOption, result.2)
  close circumstance attempt :=
    (runs (close circumstance.2) { attempt with script := circumstance.1 }).2
  empty := []
  record written _ answer := written ++ answer.2

/-- An attempt that runs. -/
def Running (attempt : Attempt (WriterShared Batch)) (written : List (Nat × Batch))
    (_ : List (WriteAnswer Batch)) : Prop :=
  ∃ phase, Stage resources policy attempt phase written

variable {resources policy}

theorem Stage.redrawn {phase : Phase} (stage : Stage resources policy attempt phase written)
    (script : List Hitch) : Stage resources policy { attempt with script } phase written :=
  ⟨stage.state, stage.held, stage.lies, stage.placed, stage.boundary⟩

theorem Stage.called {phase : Phase} (stage : Stage resources policy attempt phase written)
    (script : List Hitch) : Stage resources policy (called attempt script) phase written :=
  ⟨stage.state, stage.held, stage.lies, stage.placed, stage.boundary⟩

private theorem writer_disciplined (identity : String)
    (fits : resources.resources.length < 2 ^ 32) :
    Discipline (writerComponent resources policy identity)
      (@Running Batch resources policy) (fun attempt => Held attempt.streams none)
      (fun written _ => policy 0 = false → Placed policy resources.resources.length written)
      (Restores resources policy identity) where
  starts _ := placed_nil _ _
  resumes state written restores := restores.placed
  opens circumstance inherited written none_written restored := by
    dsimp only [writerComponent]
    rcases openStream_opens fits circumstance.1 inherited none_written restored with
      ⟨outcome, after, phase, opened, stage⟩ | ⟨failure, after, failed, held, _⟩
    · rw [opened]
      exact ⟨fun _ => ⟨phase, stage⟩, fun failed => (by cases failed)⟩
    · rw [failed]
      exact ⟨fun opened => (by cases opened), fun _ => held⟩
  calls request attempt written answers running := by
    obtain ⟨phase, stage⟩ := running
    obtain ⟨next, after, _⟩ :=
      (write_writes fits (stage.called request.script) rfl request.stopRequested).stage
    exact ⟨next, after⟩
  saves circumstance attempt written answers running := by
    obtain ⟨phase, stage⟩ := running
    obtain ⟨after, restores⟩ :=
      @update_saves _ _ _ _ _ identity _ (stage.redrawn circumstance.1)
    refine ⟨⟨phase, after⟩, fun saved given => restores saved ?_⟩
    dsimp only [writerComponent] at given
    cases result :
        (runs (update resources identity) { attempt with script := circumstance.1 }).1 with
    | error failure =>
      rw [result] at given
      cases given
    | ok state =>
      rw [result] at given
      exact congrArg Except.ok (Option.some.inj given)
  closes circumstance attempt written answers running := by
    obtain ⟨phase, stage⟩ := running
    exact close_rests (stage.redrawn _) _
  keeps attempt written answers running := by
    obtain ⟨phase, stage⟩ := running
    exact stage.placed

/-- A writer whose boundary close has failed. -/
def PoisonedBy (resources : ResourceSet) (category : FailureCategory)
    (attempt : Attempt (WriterShared Batch)) : Prop :=
  attempt.component.active = some (.poisoned category) ∧ resources.resources.isEmpty = false

/-- What it answers from then on. -/
def refusal (category : FailureCategory) (request : WriteRequest Batch) : WriteAnswer Batch :=
  (if request.stopRequested then .ok .stopped else .error (withCategory category), [])

private theorem poisoned_refuses {category : FailureCategory}
    (poisoned : PoisonedBy resources category attempt) (request : WriteRequest Batch) :
    runs (write resources policy request.stopRequested request.batch)
        (called attempt request.script) =
      ((refusal category request).1, called attempt request.script) := by
  unfold write refusal
  cases request.stopRequested with
  | true => rfl
  | false =>
    rw [if_neg Bool.false_ne_true, if_neg (Bool.eq_false_iff.mp poisoned.2), runs_bind,
      runs_component]
    unfold called
    dsimp only
    rw [poisoned.1]
    rfl

theorem writer_stuck (identity : String) (category : FailureCategory) :
    Stuck (writerComponent resources policy identity)
      (@PoisonedBy Batch resources category) (refusal category) where
  calls request attempt poisoned := by
    dsimp only [writerComponent]
    rw [poisoned_refuses poisoned]
    exact ⟨rfl, poisoned⟩
  saves circumstance attempt poisoned := by
    have answers : runs (update resources identity) { attempt with script := circumstance.1 } =
        (.error category, { attempt with script := circumstance.1 }) := by
      unfold update
      rw [runs_bind, runs_component]
      dsimp only
      rw [poisoned.1]
      rfl
    dsimp only [writerComponent]
    rw [answers]
    exact ⟨rfl, poisoned⟩
  closes circumstance attempt poisoned := by
    have answers : runs (close circumstance.2) { attempt with script := circumstance.1 } =
        (.ok (), { attempt with script := circumstance.1 }) := by
      unfold close
      rw [runs_bind, runs_component]
      dsimp only
      rw [poisoned.1]
      rfl
    dsimp only [writerComponent]
    rw [answers]
    exact poisoned
  records written request := List.append_nil written

variable (resources policy) in
/-- Before the first attempt. -/
def writerStart (identity : String) :
    Restarts.World (Attempt (WriterShared Batch)) MultiResourceState (WriteAnswer Batch)
      (List (Nat × Batch)) :=
  .initial (writerComponent resources policy identity) ⟨[], [], .new⟩

abbrev WriterWorld (Batch : Type) :=
  Restarts.World (Attempt (WriterShared Batch)) MultiResourceState (WriteAnswer Batch)
    (List (Nat × Batch))

abbrev WriterEvent (Batch : Type) :=
  Restarts.Event (WriteRequest Batch) (List Hitch × StreamRuntimeOutcome)

/-- What holds of every world of a writer. -/
abbrev SoundWriter (resources : ResourceSet) (policy : RolloverPolicy) (identity : String)
    (world : WriterWorld Batch) : Prop :=
  Restarts.Sound (@Running Batch resources policy) (fun attempt => Held attempt.streams none)
    (fun written _ => policy 0 = false → Placed policy resources.resources.length written)
    (Restores resources policy identity) world

theorem writer_sound (identity : String) (fits : resources.resources.length < 2 ^ 32)
    (events : List (WriterEvent Batch)) :
    SoundWriter resources policy identity ((writerStart resources policy identity).run
      (writerComponent resources policy identity) events) :=
  (sound_initial (writer_disciplined identity fits) held_nil).run
    (writer_disciplined identity fits) events

theorem writer_reopens {identity : String} (fits : resources.resources.length < 2 ^ 32)
    {state : MultiResourceState} (restores : Restores resources policy identity state written)
    (outcome : StreamRuntimeOutcome) :
    ((@writerComponent Batch resources policy identity).begins ([], outcome)
      (some state)).2 = true := by
  dsimp only [writerComponent]
  rcases @openStream_opens _ resources policy written identity fits [] (some state)
    (fun none_inherited => by cases none_inherited)
    (fun other same => Option.some.inj same ▸ restores) with
    ⟨_, after, _, opened, _⟩ | ⟨_, _, _, _, rough⟩
  · rw [opened]
    rfl
  · exact absurd rfl (rough rfl)

section Sound

variable {identity : String} {world : WriterWorld Batch}
  (sound : SoundWriter resources policy identity world)

include sound

theorem writer_held : ∃ current, Held world.state.streams current := by
  by_cases running : world.status = .running
  · obtain ⟨phase, stage⟩ := sound.running running
    exact ⟨_, stage.held⟩
  · exact ⟨none, sound.resting running⟩

theorem writer_oneOpen (first second : Nat) (stream stream' : Stream)
    (found : world.state.streams[first]? = some stream)
    (found' : world.state.streams[second]? = some stream') (live : stream.Live)
    (live' : stream'.Live) : first = second := by
  obtain ⟨current, held⟩ := writer_held sound
  exact held.one_live found found' live live'

theorem writer_closedOnce (stream : Stream) (member : stream ∈ world.state.streams) :
    stream.closings.length ≤ 1 ∧ (stream.opened = false → stream.closings = []) := by
  obtain ⟨current, held⟩ := writer_held sound
  obtain ⟨number, found⟩ := List.mem_iff_getElem?.mp member
  exact held.closed_once found

theorem writer_allClosed (closed : world.status = .closed) (stream : Stream)
    (member : stream ∈ world.state.streams) (opened : stream.opened = true) :
    stream.closings.length = 1 := by
  obtain ⟨number, found⟩ := List.mem_iff_getElem?.mp member
  have resting := sound.resting (by simp [closed])
  exact Held.all_closed resting found opened

/-- A call writes its batch whole to one delegate, or nothing. -/
theorem writer_whole (fits : resources.resources.length < 2 ^ 32)
    (running : world.status = .running) (request : WriteRequest Batch) :
    ((writerComponent resources policy identity).call request world.state).1.1 = .ok .written ∧
        (∃ resource, (world.perform (writerComponent resources policy identity)
          (.call request)).history = world.history ++ [(resource, request.batch)]) ∨
      ((writerComponent resources policy identity).call request world.state).1.1 ≠ .ok .written ∧
        (world.perform (writerComponent resources policy identity) (.call request)).history =
          world.history := by
  obtain ⟨phase, stage⟩ := sound.running running
  rw [Restarts.World.perform_call running]
  have writes := @write_writes _ _ _ _ _ request.batch _ fits (stage.called request.script) rfl
    request.stopRequested
  refine writes.whole.imp ?_ ?_
  · rintro ⟨done, resource, taken⟩
    exact ⟨done, resource, congrArg (world.history ++ ·) taken⟩
  · rintro ⟨refused, taken⟩
    exact ⟨refused, (congrArg (world.history ++ ·) taken).trans (List.append_nil _)⟩

theorem writer_final (running : world.status = .running) (stream : Stream)
    (member : stream ∈ world.state.streams) (category : FailureCategory)
    (failed : (StreamRuntimeOutcome.resourceBoundary, some category) ∈ stream.closings)
    (events : List (WriterEvent Batch)) (goOn : ∀ event ∈ events, event.goesOn) :
    (world.run (writerComponent resources policy identity) events).history = world.history ∧
      (world.run (writerComponent resources policy identity) events).saved = world.saved ∧
      ∃ requests : List (WriteRequest Batch),
        (world.run (writerComponent resources policy identity) events).answers =
          world.answers ++ requests.map (refusal category) := by
  obtain ⟨phase, stage⟩ := sound.running running
  obtain rfl := stage.boundary stream member category failed
  exact (writer_stuck identity category).run ⟨stage.state, stage.lies⟩ events goOn

end Sound

/-- What a writer makes of its resources in any world: each batch lies whole where the policy
has it, a write that nothing disturbs takes its batch, any state saved can be started from
again, one stream is open at a time, none is closed twice, and a boundary close that fails is
the end of an attempt. -/
structure Partitions (resources : ResourceSet) (policy : RolloverPolicy) (identity : String)
    (world : Restarts.World (Attempt (WriterShared Batch)) MultiResourceState (WriteAnswer Batch)
      (List (Nat × Batch))) : Prop where
  placed : Placed policy resources.resources.length world.history
  whole : world.status = .running → ∀ request : WriteRequest Batch,
    ((writerComponent resources policy identity).call request world.state).1.1 = .ok .written ∧
        (∃ resource, (world.perform (writerComponent resources policy identity)
          (.call request)).history = world.history ++ [(resource, request.batch)]) ∨
      ((writerComponent resources policy identity).call request world.state).1.1 ≠ .ok .written ∧
        (world.perform (writerComponent resources policy identity) (.call request)).history =
          world.history
  goesOn : world.status = .running →
    (∀ category, world.state.component.active ≠ some (.poisoned category)) → ∀ batch : Batch,
      ((writerComponent resources policy identity).call ⟨false, batch, []⟩ world.state).1.1 =
        .ok .written
  reopens : ∀ (index : Nat) (outcome : StreamRuntimeOutcome), index < world.saved.length →
    (world.perform (writerComponent resources policy identity)
      (.restart ([], outcome) (some index))).status = .running
  oneOpen : ∀ (first second : Nat) (stream stream' : Stream),
    world.state.streams[first]? = some stream → world.state.streams[second]? = some stream' →
      stream.Live → stream'.Live → first = second
  closedOnce : ∀ stream ∈ world.state.streams,
    stream.closings.length ≤ 1 ∧ (stream.opened = false → stream.closings = [])
  allClosed : world.status = .closed → ∀ stream ∈ world.state.streams, stream.opened = true →
    stream.closings.length = 1
  final : world.status = .running → ∀ stream ∈ world.state.streams, ∀ category,
    (StreamRuntimeOutcome.resourceBoundary, some category) ∈ stream.closings →
      ∀ events : List (Restarts.Event (WriteRequest Batch) (List Hitch × StreamRuntimeOutcome)),
        (∀ event ∈ events, event.goesOn) →
          (world.run (writerComponent resources policy identity) events).history =
              world.history ∧
            (world.run (writerComponent resources policy identity) events).saved = world.saved ∧
            ∃ requests : List (WriteRequest Batch),
              (world.run (writerComponent resources policy identity) events).answers =
                world.answers ++ requests.map (refusal category)

/-- Behind every so many batches the writer goes on to the next resource, and stays in the
last one, whatever fails in between and wherever it is restarted. -/
theorem batch_count_fills (resources : ResourceSet) (maxBatches : Nat) (identity : String)
    (counts : 0 < maxBatches) (fits : resources.resources.length < 2 ^ 32)
    (events : List (Restarts.Event (WriteRequest Batch) (List Hitch × StreamRuntimeOutcome)))
    (number resource : Nat) (batch : Batch)
    (lies : ((writerStart resources (batchCountRollover maxBatches) identity).run
      (writerComponent resources (batchCountRollover maxBatches) identity)
        events).history[number]? = some (resource, batch)) :
    resource = min (number / maxBatches) (resources.resources.length - 1) := by
  have fresh : batchCountRollover maxBatches 0 = false := decide_eq_false (Nat.not_le.mpr counts)
  have placed := (writer_sound identity fits events).kept fresh
  exact (placed number resource batch lies).trans (batchCount_resource counts number)

/-- Two small resources. -/
def twoParts : ResourceSet :=
  .new (fun _ => 0) (["a", "b"].filterMap fun value => (ResourceIdentity.new value).toOption)

/-- The second resource cannot be opened at first; the attempt is restarted in front of it. -/
def interrupted : List (Restarts.Event (WriteRequest Nat) (List Hitch × StreamRuntimeOutcome)) :=
  [.restart ([], .failed) none, .call ⟨false, 10, []⟩,
    .call ⟨false, 20, [.fine, .fails .transientInfrastructure]⟩, .save ([], .failed),
    .close ([], .failed), .restart ([], .committed) (some 0), .call ⟨true, 20, []⟩,
    .call ⟨false, 20, []⟩, .call ⟨false, 30, []⟩, .close ([], .committed)]

theorem batch_count_fills_second :
    twoParts.resources.length = 2 ∧ 1 = min (1 / 1) (twoParts.resources.length - 1) :=
  ⟨by decide +kernel, batch_count_fills twoParts 1 "rows" (by decide +kernel) (by decide +kernel)
    interrupted 1 1 20 (by decide +kernel)⟩

end Runs

end OxideBatch.Item.MultiResource.Writer
