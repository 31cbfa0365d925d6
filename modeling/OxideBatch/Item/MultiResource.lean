import OxideBatch.Core.Component
import OxideBatch.Core.Definition
import OxideBatch.Item.OutputFile
import OxideBatch.Lib.Framing
import OxideBatch.Lib.Handover

/-! The reader and the writer over an ordered set of resources: the delegate of each is
made on demand, and an attempt goes on with the next resource when one is done. -/

namespace OxideBatch.Item.MultiResource

open OxideBatch.Core OxideBatch.Lib Triple Handover

section Resources

/-- `MAX_RESOURCE_IDENTITY_BYTES`. -/
def maxResourceIdentityBytes : Nat := 1024

inductive MultiResourceConfigError where
  | emptyResourceIdentity
  | resourceIdentityTooLong (maxBytes : Nat)
  | malformedResourceIdentity
  deriving DecidableEq

/-- The identity of one physical resource. -/
structure ResourceIdentity where
  value : String
  nonempty : value.utf8ByteSize ≠ 0
  bounded : value.utf8ByteSize ≤ maxResourceIdentityBytes
  printable : value.toList.any isControl = false
  deriving DecidableEq

def ResourceIdentity.new (value : String) : Except MultiResourceConfigError ResourceIdentity :=
  if nonempty : value.utf8ByteSize = 0 then .error .emptyResourceIdentity
  else if bounded : maxResourceIdentityBytes < value.utf8ByteSize then
    .error (.resourceIdentityTooLong maxResourceIdentityBytes)
  else if printable : value.toList.any isControl = true then .error .malformedResourceIdentity
  else .ok ⟨value, nonempty, Nat.not_lt.mp bounded, by simpa using printable⟩

/-- What `ResourceSetRevision::of` hashes. -/
def revisionBytes (resources : List ResourceIdentity) : List UInt8 :=
  textBytes "oxide-batch.resource-set" ++
    0 :: resources.flatMap fun resource => textBytes resource.value ++ [0]

structure ResourceSet where
  resources : List ResourceIdentity
  revision : Digest

def ResourceSet.new (hash : List UInt8 → Digest) (resources : List ResourceIdentity) :
    ResourceSet :=
  ⟨resources, hash (revisionBytes resources)⟩

/-- The number of resources, in `u32`. -/
def ResourceSet.ordinals (resources : ResourceSet) : Nat :=
  min resources.resources.length (2 ^ 32 - 1)

end Resources

section Position

/-- What is embedded of the envelope of a delegate: its namespace, and the position that
its own columns hold. -/
structure DelegateEnvelope where
  streamNamespace : String
  position : Nat
  deriving DecidableEq

structure MultiResourceState where
  resourceSetRevision : Digest
  resourceIndex : Nat
  delegate : Option DelegateEnvelope
  resourceBatchesWritten : Nat
  deriving DecidableEq

end Position

section Delegates

/-- How a call on an opener or on a delegate goes. -/
inductive Hitch where
  | fine
  | fails (category : FailureCategory)
  | stops
  | misnamed (streamNamespace : String)
  deriving DecidableEq

/-- A delegate over one resource, and how far it has got in it. -/
structure Delegate where
  resource : Nat
  position : Nat
  deriving DecidableEq

/-- A delegate stream; each close has an outcome, and may fail. -/
abbrev Stream := Holding Delegate (StreamRuntimeOutcome × Option FailureCategory)

/-- One attempt: the streams that its opener made, in that order, how the next calls go,
and the component over them. -/
structure Attempt (σ : Type) where
  streams : List Stream
  script : List Hitch
  component : σ

variable {σ ε : Type}

def component : Fallible (Attempt σ) ε σ := do return (← get).component

def change (update : σ → σ) : Fallible (Attempt σ) ε Unit :=
  modify fun attempt => { attempt with component := update attempt.component }

/-- The attempt once a call has been made. -/
def Attempt.drawn (attempt : Attempt σ) : Attempt σ :=
  { attempt with script := attempt.script.tail }

/-- How the next call goes; all is fine behind the script. -/
def draw : Fallible (Attempt σ) ε Hitch := do
  let attempt ← get
  set attempt.drawn
  pure (attempt.script.head?.getD .fine)

variable (failure : FailureCategory → ε)

/-- A call that may fail. -/
def passes : Fallible (Attempt σ) ε Unit := do
  match ← draw with
  | .fails category => throw (failure category)
  | _ => pure ()

def Attempt.entered (attempt : Attempt σ) (resource : Nat) : Attempt σ :=
  { attempt with streams := attempt.streams ++ [.fresh ⟨resource, 0⟩] }

/-- `opener.open`: a delegate at the start of its resource. -/
def openerOpen (resource : Nat) : Fallible (Attempt σ) ε Nat := do
  passes failure
  let attempt ← get
  modify fun attempt => attempt.entered resource
  pure attempt.streams.length

def Attempt.opened (attempt : Attempt σ) (number position : Nat) : Attempt σ :=
  { attempt with
    streams := attempt.streams.modify number (.start fun delegate => { delegate with position }) }

/-- `stream.open`, at an inherited position or at the start. -/
def streamOpen (number : Nat) (inherited : Option Nat) : Fallible (Attempt σ) ε Unit := do
  passes failure
  modify fun attempt => attempt.opened number (inherited.getD 0)

def Attempt.closed (attempt : Attempt σ) (number : Nat)
    (closing : StreamRuntimeOutcome × Option FailureCategory) : Attempt σ :=
  { attempt with streams := attempt.streams.modify number (.close closing) }

/-- `stream.close`, with its failure if it fails. -/
def streamClose (number : Nat) (outcome : StreamRuntimeOutcome) :
    Fallible (Attempt σ) ε (Option FailureCategory) := do
  let failed := match ← draw with
    | .fails category => some category
    | _ => none
  modify fun attempt => attempt.closed number (outcome, failed)
  pure failed

/-- The terminal close of a delegate stream. -/
def closeStream (number : Nat) (outcome : StreamRuntimeOutcome) : Fallible (Attempt σ) ε Unit := do
  match ← streamClose number outcome with
  | some category => throw (failure category)
  | none => pure ()

/-- A delegate that has got on by one. -/
def Attempt.moved (attempt : Attempt σ) (number : Nat) : Attempt σ :=
  { attempt with
    streams := attempt.streams.modify number
      (.move fun delegate => { delegate with position := delegate.position + 1 }) }

/-- The delegate under a number. -/
def Attempt.delegate (attempt : Attempt σ) (number : Nat) : Delegate :=
  (attempt.streams[number]?.map (·.state)).getD ⟨0, 0⟩

/-- `stream.update`. -/
def streamUpdate (identity : String) (number : Nat) : Fallible (Attempt σ) ε DelegateEnvelope := do
  let position := ((← get).delegate number).position
  match ← draw with
  | .fails category => throw (failure category)
  | .misnamed other => pure ⟨other, position⟩
  | _ => pure ⟨identity, position⟩

/-- Opens the delegate of a resource at its start. -/
def takeUp (resource : Nat) : Fallible (Attempt σ) ε Nat := do
  let number ← openerOpen failure resource
  streamOpen failure number none
  pure number

/-- Opens the delegate that an attempt starts with, at its embedded position. -/
def resumeDelegate (identity : String) (resource : Nat) :
    Option DelegateEnvelope → Fallible (Attempt σ) ε Nat
  | none => takeUp failure resource
  | some columns => do
    let number ← openerOpen failure resource
    if columns.streamNamespace ≠ identity then throw (failure .invariant)
    else do
      -- the columns become an envelope again, and the contract of the delegate accepts it
      passes fun _ => failure .userComponent
      streamOpen failure number (some columns.position)
      pure number

/-- `update` of the component whose current delegate is `number`. -/
def embed (identity : String) (resources : ResourceSet) (index number batches : Nat) :
    Fallible (Attempt σ) ε MultiResourceState := do
  let envelope ← streamUpdate failure identity number
  if envelope.streamNamespace ≠ identity then throw (failure .invariant)
  else do
    -- the columns and the state around them are encoded within the limits
    passes fun _ => failure .userComponent
    pure ⟨resources.revision, index, some envelope, batches⟩

end Delegates

section Calls

variable {σ ε : Type} {failure : FailureCategory → ε} {attempt after : Attempt σ}

@[simp] theorem runs_component :
    runs (component : Fallible (Attempt σ) ε σ) attempt = (.ok attempt.component, attempt) := rfl

/-- Beside the next calls only unopened streams come in. -/
structure Waits (attempt after : Attempt σ) : Prop where
  component : after.component = attempt.component
  streams : ∃ made : List Delegate, after.streams = attempt.streams ++ made.map .fresh

theorem delegate_eq {number : Nat} {stream : Stream}
    (found : attempt.streams[number]? = some stream) : attempt.delegate number = stream.state := by
  unfold Attempt.delegate
  rw [found]
  rfl

theorem Waits.drawn (attempt : Attempt σ) : Waits attempt attempt.drawn :=
  ⟨rfl, [], by simp [Attempt.drawn]⟩

theorem Waits.trans {middle : Attempt σ} (first : Waits attempt middle)
    (second : Waits middle after) : Waits attempt after := by
  obtain ⟨made, streams⟩ := first.streams
  obtain ⟨made', streams'⟩ := second.streams
  exact ⟨second.component.trans first.component, made ++ made',
    by rw [streams', streams, List.map_append, List.append_assoc]⟩

theorem Waits.held (waits : Waits attempt after) {current : Option Nat}
    (held : Held attempt.streams current) : Held after.streams current := by
  obtain ⟨made, streams⟩ := waits.streams
  rw [streams]
  clear streams
  induction made using List.reverseRecOn with
  | nil => simpa using held
  | append_singleton made delegate ih =>
    rw [List.map_append, List.map_singleton, ← List.append_assoc]
    exact ih.enter delegate

theorem Waits.found (waits : Waits attempt after) {number : Nat} {stream : Stream}
    (found : attempt.streams[number]? = some stream) : after.streams[number]? = some stream := by
  obtain ⟨made, streams⟩ := waits.streams
  rw [streams, List.getElem?_append_left (List.getElem?_eq_some_iff.mp found).1]
  exact found

/-- A stream that comes in has not been closed. -/
theorem Waits.closings (waits : Waits attempt after) {stream : Stream}
    (member : stream ∈ after.streams) : stream ∈ attempt.streams ∨ stream.closings = [] := by
  obtain ⟨made, streams⟩ := waits.streams
  rw [streams] at member
  rcases List.mem_append.mp member with old | new
  · exact .inl old
  · obtain ⟨delegate, _, rfl⟩ := List.mem_map.mp new
    exact .inr rfl

theorem runs_draw : runs (draw : Fallible (Attempt σ) ε Hitch) attempt =
    (.ok (attempt.script.head?.getD .fine), attempt.drawn) := rfl

/-- Nothing disturbs the next calls. -/
def Attempt.Calm (attempt : Attempt σ) : Prop := attempt.script = []

theorem Attempt.Calm.drawn (calm : attempt.Calm) : attempt.drawn.Calm := by
  unfold Attempt.Calm Attempt.drawn at *
  rw [calm]
  rfl

theorem Attempt.Calm.head (calm : attempt.Calm) : attempt.script.head?.getD .fine = .fine := by
  rw [show attempt.script = [] from calm]
  rfl

theorem passes_cases : runs (passes failure) attempt = (.ok (), attempt.drawn) ∨
    ∃ category, runs (passes failure) attempt = (.error (failure category), attempt.drawn) ∧
      ¬ attempt.Calm := by
  unfold passes
  rw [runs_bind, runs_draw]
  dsimp only
  cases hitch : attempt.script.head?.getD .fine with
  | fine => exact .inl rfl
  | fails category =>
    refine .inr ⟨category, rfl, fun calm => ?_⟩
    rw [calm.head] at hitch
    cases hitch
  | stops => exact .inl rfl
  | misnamed other => exact .inl rfl

private theorem openerOpen_cases (resource : Nat) :
    runs (openerOpen failure resource) attempt =
        (.ok attempt.streams.length, attempt.drawn.entered resource) ∨
      ∃ category, runs (openerOpen failure resource) attempt =
        (.error (failure category), attempt.drawn) ∧ ¬ attempt.Calm := by
  unfold openerOpen
  rw [runs_bind]
  rcases @passes_cases _ _ failure attempt with passed | ⟨category, failed, rough⟩
  · rw [passed]
    exact .inl rfl
  · rw [failed]
    exact .inr ⟨category, rfl, rough⟩

private theorem streamOpen_cases (number : Nat) (inherited : Option Nat) :
    runs (streamOpen failure number inherited) attempt =
        (.ok (), attempt.drawn.opened number (inherited.getD 0)) ∨
      ∃ category, runs (streamOpen failure number inherited) attempt =
        (.error (failure category), attempt.drawn) ∧ ¬ attempt.Calm := by
  unfold streamOpen
  rw [runs_bind]
  rcases @passes_cases _ _ failure attempt with passed | ⟨category, failed, rough⟩
  · rw [passed]
    exact .inl rfl
  · rw [failed]
    exact .inr ⟨category, rfl, rough⟩

theorem streamClose_runs (number : Nat) (outcome : StreamRuntimeOutcome) :
    ∃ failed, runs (streamClose number outcome : Fallible (Attempt σ) ε _) attempt =
      (.ok failed, attempt.drawn.closed number (outcome, failed)) ∧
      (attempt.Calm → failed = none) := by
  refine ⟨_, rfl, fun calm => ?_⟩
  rw [calm.head]

theorem closeStream_leaves (number : Nat) (outcome : StreamRuntimeOutcome) :
    ∃ failed, (runs (closeStream failure number outcome) attempt).2 =
      attempt.drawn.closed number (outcome, failed) := by
  obtain ⟨failed, closed, _⟩ := @streamClose_runs _ ε attempt number outcome
  refine ⟨failed, ?_⟩
  unfold closeStream
  rw [runs_bind, closed]
  cases failed <;> rfl

/-- A delegate that gets on has been closed as often as before. -/
theorem moved_closings {number : Nat} {stream : Stream}
    (member : stream ∈ (attempt.moved number).streams) :
    ∃ before ∈ attempt.streams, stream.closings = before.closings := by
  obtain ⟨place, known⟩ := List.mem_iff_getElem?.mp member
  change (attempt.streams.modify number _)[place]? = some stream at known
  rw [List.getElem?_modify] at known
  obtain ⟨before, kept, rfl⟩ := Option.map_eq_some_iff.mp known
  refine ⟨before, List.mem_of_getElem? kept, ?_⟩
  split <;> rfl

/-- A close adds at most itself to what a stream has been closed with. -/
theorem mem_closed_closings {number : Nat}
    {closing other : StreamRuntimeOutcome × Option FailureCategory} {stream : Stream}
    (member : stream ∈ (attempt.closed number closing).streams)
    (closed : other ∈ stream.closings) :
    other = closing ∨ ∃ before ∈ attempt.streams, other ∈ before.closings := by
  obtain ⟨place, known⟩ := List.mem_iff_getElem?.mp member
  change (attempt.streams.modify number _)[place]? = some stream at known
  rw [List.getElem?_modify] at known
  obtain ⟨before, kept, rfl⟩ := Option.map_eq_some_iff.mp known
  have earlier := List.mem_of_getElem? kept
  split at closed
  · rcases List.mem_append.mp closed with already | now
    · exact .inr ⟨before, earlier, already⟩
    · exact .inl (List.mem_singleton.mp now)
  · exact .inr ⟨before, earlier, closed⟩

theorem moved_found {number : Nat} {stream : Stream}
    (found : attempt.streams[number]? = some stream) :
    (attempt.moved number).streams[number]? =
      some (stream.move fun delegate => { delegate with position := delegate.position + 1 }) := by
  change (attempt.streams.modify number _)[number]? = _
  rw [List.getElem?_modify, found]
  simp

theorem closed_found {number : Nat} {stream : Stream}
    (found : attempt.streams[number]? = some stream)
    (closing : StreamRuntimeOutcome × Option FailureCategory) :
    (attempt.closed number closing).streams[number]? = some (stream.close closing) := by
  change (attempt.streams.modify number _)[number]? = _
  rw [List.getElem?_modify, found]
  simp

theorem ordinals_eq {resources : ResourceSet} (fits : resources.resources.length < 2 ^ 32) :
    resources.ordinals = resources.resources.length := by
  unfold ResourceSet.ordinals
  omega

/-- A delegate is open at a position, as the last one made. -/
structure TakenUp (attempt : Attempt σ) (resource position : Nat) (after : Attempt σ) : Prop where
  component : after.component = attempt.component
  held : Held attempt.streams none → Held after.streams (some attempt.streams.length)
  found : ∃ stream, after.streams[attempt.streams.length]? = some stream ∧
    stream.state = ⟨resource, position⟩
  closings : ∀ stream ∈ after.streams, stream ∈ attempt.streams ∨ stream.closings = []

private theorem opened_takenUp {middle : Attempt σ} {resource : Nat} (position : Nat)
    (component : middle.component = attempt.component)
    (entered : middle.streams = attempt.streams ++ [.fresh ⟨resource, 0⟩]) :
    TakenUp attempt resource position (middle.opened attempt.streams.length position) := by
  have streams : (middle.opened attempt.streams.length position).streams =
      attempt.streams ++ [⟨⟨resource, position⟩, true, []⟩] := by
    unfold Attempt.opened
    rw [entered]
    exact modify_last attempt.streams _ _
  refine ⟨component, fun held => ?_, ⟨⟨⟨resource, position⟩, true, []⟩, ?_, rfl⟩,
    fun stream member => ?_⟩
  · have stored : (attempt.streams ++ [Holding.fresh ⟨resource, 0⟩])[attempt.streams.length]? =
        some (.fresh ⟨resource, 0⟩ : Stream) := by simp
    unfold Attempt.opened
    rw [entered]
    exact (held.enter ⟨resource, 0⟩).opens stored rfl _
  · rw [streams]
    simp
  · rw [streams] at member
    rcases List.mem_append.mp member with old | new
    · exact .inl old
    · obtain rfl := List.mem_singleton.mp new
      exact .inr rfl

/-- A delegate is taken up, or the call fails and nothing is open beside what was. -/
theorem takeUp_cases (resource : Nat) :
    (∃ after, runs (takeUp failure resource) attempt = (.ok attempt.streams.length, after) ∧
      TakenUp attempt resource 0 after ∧ (attempt.Calm → after.Calm)) ∨
    ∃ category after, runs (takeUp failure resource) attempt = (.error (failure category), after) ∧
      Waits attempt after ∧ ¬ attempt.Calm := by
  unfold takeUp
  rw [runs_bind]
  rcases @openerOpen_cases _ _ failure attempt resource with made | ⟨category, failed, rough⟩
  · rw [made]
    dsimp only
    rw [runs_bind]
    rcases @streamOpen_cases _ _ failure (attempt.drawn.entered resource) attempt.streams.length
      none with opened | ⟨category, failed, rough⟩
    · rw [opened]
      exact .inl ⟨_, rfl, opened_takenUp 0 rfl rfl, fun calm => calm.drawn.drawn⟩
    · rw [failed]
      exact .inr ⟨category, _, rfl, ⟨rfl, [⟨resource, 0⟩], rfl⟩, fun calm => rough calm.drawn⟩
  · rw [failed]
    exact .inr ⟨category, _, rfl, .drawn attempt, rough⟩

theorem resumeDelegate_cases (identity : String) (resource : Nat)
    (inherited : Option DelegateEnvelope) :
    (∃ after, runs (resumeDelegate failure identity resource inherited) attempt =
        (.ok attempt.streams.length, after) ∧
      TakenUp attempt resource ((inherited.map (·.position)).getD 0) after) ∨
    ∃ error after, runs (resumeDelegate failure identity resource inherited) attempt =
      (.error error, after) ∧ Waits attempt after ∧
      ((∀ columns, inherited = some columns → columns.streamNamespace = identity) →
        ¬ attempt.Calm) := by
  cases inherited with
  | none =>
    rcases @takeUp_cases _ _ failure attempt resource with
      ⟨after, done, taken, _⟩ | ⟨category, after, failed, waits, rough⟩
    · exact .inl ⟨after, done, taken⟩
    · exact .inr ⟨_, after, failed, waits, fun _ => rough⟩
  | some columns =>
    unfold resumeDelegate
    rw [runs_bind]
    rcases @openerOpen_cases _ _ failure attempt resource with made | ⟨category, failed, rough⟩
    · rw [made]
      have waits : Waits attempt (attempt.drawn.entered resource) := ⟨rfl, [⟨resource, 0⟩], rfl⟩
      dsimp only
      split
      · rename_i other
        exact .inr ⟨_, _, rfl, waits, fun named => absurd (named columns rfl) other⟩
      · rw [runs_bind]
        rcases @passes_cases _ _ (fun _ => failure .userComponent)
          (attempt.drawn.entered resource) with passed | ⟨_, failed, rough⟩
        · rw [passed]
          dsimp only
          rw [runs_bind]
          rcases @streamOpen_cases _ _ failure (attempt.drawn.entered resource).drawn
            attempt.streams.length (some columns.position) with opened | ⟨category, failed, rough⟩
          · rw [opened]
            exact .inl ⟨_, rfl, opened_takenUp columns.position rfl rfl⟩
          · rw [failed]
            exact .inr ⟨_, _, rfl, ⟨waits.component, waits.streams⟩,
              fun _ calm => rough calm.drawn.drawn⟩
        · rw [failed]
          exact .inr ⟨_, _, rfl, ⟨waits.component, waits.streams⟩, fun _ calm => rough calm.drawn⟩
    · rw [failed]
      exact .inr ⟨_, _, rfl, .drawn attempt, fun _ => rough⟩

/-- The state that is embedded is the position of the current delegate. -/
theorem embed_cases (identity : String) (resources : ResourceSet) (index batches : Nat)
    {number : Nat} {stream : Stream} (found : attempt.streams[number]? = some stream) :
    ∃ after, Waits attempt after ∧
      ((∃ error, runs (embed failure identity resources index number batches) attempt =
        (.error error, after)) ∨
      runs (embed failure identity resources index number batches) attempt =
        (.ok ⟨resources.revision, index, some ⟨identity, stream.state.position⟩, batches⟩,
          after)) := by
  have updated : ∃ after, Waits attempt after ∧
      ((∃ error, runs (streamUpdate failure identity number) attempt = (.error error, after)) ∨
      ∃ name, runs (streamUpdate failure identity number) attempt =
        (.ok ⟨name, stream.state.position⟩, after)) := by
    refine ⟨_, .drawn attempt, ?_⟩
    unfold streamUpdate
    rw [runs_bind]
    change (∃ error, runs (draw >>= _) attempt = _) ∨ ∃ name, runs (draw >>= _) attempt = _
    rw [runs_bind, runs_draw]
    dsimp only
    rw [delegate_eq found]
    cases attempt.script.head?.getD .fine with
    | fine => exact .inr ⟨_, rfl⟩
    | fails category => exact .inl ⟨_, rfl⟩
    | stops => exact .inr ⟨_, rfl⟩
    | misnamed other => exact .inr ⟨_, rfl⟩
  obtain ⟨middle, waits, outcome⟩ := updated
  unfold embed
  rw [runs_bind]
  rcases outcome with ⟨error, failed⟩ | ⟨name, given⟩
  · rw [failed]
    exact ⟨middle, waits, .inl ⟨error, rfl⟩⟩
  · rw [given]
    dsimp only
    by_cases same : name = identity
    · subst same
      rw [if_neg (not_not.mpr rfl), runs_bind]
      rcases @passes_cases _ _ (fun _ => failure .userComponent) middle with passed | ⟨_, failed, _⟩
      · rw [passed]
        exact ⟨_, waits.trans (.drawn middle), .inr rfl⟩
      · rw [failed]
        exact ⟨_, waits.trans (.drawn middle), .inl ⟨_, rfl⟩⟩
    · rw [if_pos same]
      exact ⟨middle, waits, .inl ⟨_, rfl⟩⟩

/-- When nothing disturbs it, the position is embedded. -/
theorem embed_calm (identity : String) (resources : ResourceSet) (index batches : Nat)
    {number : Nat} {stream : Stream} (found : attempt.streams[number]? = some stream)
    (calm : attempt.Calm) :
    (runs (embed failure identity resources index number batches) attempt).1 =
      .ok ⟨resources.revision, index, some ⟨identity, stream.state.position⟩, batches⟩ := by
  have place := delegate_eq found
  obtain ⟨streams, script, component⟩ := attempt
  obtain rfl : script = [] := calm
  have updated : runs (streamUpdate failure identity number) ⟨streams, [], component⟩ =
      (.ok ⟨identity, stream.state.position⟩, ⟨streams, [], component⟩) := by
    unfold streamUpdate
    rw [runs_bind]
    change runs (draw >>= _) _ = _
    rw [runs_bind, runs_draw]
    dsimp only
    rw [place]
    rfl
  unfold embed
  rw [runs_bind, updated]
  dsimp only
  rw [if_neg (not_not.mpr rfl)]
  rfl

end Calls

end OxideBatch.Item.MultiResource
