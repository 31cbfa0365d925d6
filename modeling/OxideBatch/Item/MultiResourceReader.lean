import OxideBatch.Item.MultiResource
import OxideBatch.Lib.Restarts

/-! The multi-resource reader: over every run of reads, updates, and restarts it delivers
its resources one behind the other, and its delegate streams are opened one at a time. -/

namespace OxideBatch.Item.MultiResource

open OxideBatch.Core OxideBatch.Lib Triple Handover

section Reader

/-- The current delegate stream, and whether it is closed already. -/
structure StreamHandle where
  index : Nat
  stream : Nat
  retired : Bool
  deriving DecidableEq

/-- `MultiResourceReader` and what it shares with its stream; delegates go by number. -/
structure ReaderState where
  handle : Option StreamHandle
  pendingReader : Option Nat
  sharedPoisoned : Option FailureCategory
  reader : Option Nat
  started : Bool
  transitioning : Bool
  poisoned : Option FailureCategory
  deriving DecidableEq

def ReaderState.new : ReaderState := ⟨none, none, none, none, false, false, none⟩

variable {Item : Type}

/-- What a resource holds: items, and records that fail and are passed over. -/
abbrev Entry (Item : Type) := Except FailureCategory Item

variable (resources : ResourceSet) (contents : ResourceIdentity → List (Entry Item))

/-- The entries of the resource at an index. -/
def entriesAt (index : Nat) : List (Entry Item) :=
  (resources.resources[index]?.map contents).getD []

abbrev ReaderCall (ε α : Type) := Fallible (Attempt ReaderState) ε α

/-- A delegate passes an entry, if there is one. -/
def pass (number : Nat) : Option (Entry Item) → ReaderCall ReaderError (ReadOutcome Item)
  | none => pure .endOfInput
  | some (.ok item) => do
    modify (·.moved number)
    pure (.item item)
  | some (.error category) => do
    modify (·.moved number)
    throw ((ReaderError.withCategory category).withCheckpointAdvanced true)

/-- The next entry of the resource of a delegate. -/
def delegateNext (number : Nat) : ReaderCall ReaderError (ReadOutcome Item) := do
  let delegate := (← get).delegate number
  pass number (entriesAt resources contents delegate.resource)[delegate.position]?

/-- `reader.read` of a delegate. -/
def delegateRead (number : Nat) : ReaderCall ReaderError (ReadOutcome Item) := do
  match ← draw with
  | .fails category => throw (.withCategory category)
  | .stops => pure .stopped
  | _ => delegateNext resources contents number

/-- Closes the stream of a delegate that is exhausted. -/
def retire : ReaderCall ReaderError Unit := do
  match (← component).handle with
  | none => throw (.withCategory .invariant)
  | some handle =>
    let failed ← streamClose handle.stream .resourceBoundary
    change fun reader =>
      { reader with handle := some { handle with retired := true }, reader := none }
    match failed with
    | none => change fun reader => { reader with transitioning := true }
    | some category =>
      change fun reader =>
        { reader with poisoned := some category, sharedPoisoned := some category }
      throw (.withCategory category)

/-- Goes on to the next resource; `false` when there is none. -/
def transition : ReaderCall ReaderError Bool := do
  match (← component).handle with
  | none => throw (.withCategory .invariant)
  | some handle =>
    if resources.resources.length ≤ handle.index + 1 then do
      change fun reader => { reader with handle := none, transitioning := false }
      pure false
    else do
      let number ← takeUp .withCategory (handle.index + 1)
      change fun reader =>
        { reader with
          reader := some number
          handle := some ⟨handle.index + 1, number, false⟩
          transitioning := false }
      pure true

/-- What is done with the outcome of a delegate. -/
def deliver (goOn : ReaderCall ReaderError (ReadOutcome Item)) :
    ReadOutcome Item → ReaderCall ReaderError (ReadOutcome Item)
  | .item item => pure (.item item)
  | .stopped => pure .stopped
  | .endOfInput => do
    retire
    goOn

/-- The loop of `read`, once for each resource that is left. -/
def readLoop : Nat → ReaderCall ReaderError (ReadOutcome Item)
  | 0 => pure .endOfInput
  | rounds + 1 => do
    let reader ← component
    let goOn : ReaderCall ReaderError (ReadOutcome Item) := do
      if ← transition resources then readLoop rounds else pure .endOfInput
    if reader.transitioning then goOn
    else match reader.reader with
      | none => pure .endOfInput
      | some number => do
        deliver goOn (← delegateRead resources contents number)

/-- `MultiResourceReader::read`. -/
def read : ReaderCall ReaderError (ReadOutcome Item) := do
  let reader ← component
  match reader.poisoned with
  | some category => throw (.withCategory category)
  | none =>
    if reader.started then readLoop resources contents (resources.resources.length + 1)
    else do
      change fun reader => { reader with started := true, pendingReader := none }
      match reader.pendingReader with
      | some number => do
        change fun reader => { reader with reader := some number }
        readLoop resources contents (resources.resources.length + 1)
      | none => pure .endOfInput

/-- `MultiResourceReaderStream::open`; its failures by their category. -/
def openStream (identity : String) (inherited : Option MultiResourceState) :
    ReaderCall FailureCategory StreamOpenOutcome := do
  let outcome := if inherited.isSome then .restored else .initial
  let index := (inherited.map (·.resourceIndex)).getD 0
  if inherited.any (·.resourceSetRevision ≠ resources.revision) then throw .unsupportedCapability
  else if resources.ordinals < index then throw .invariant
  else if index = resources.ordinals then do
    change fun reader => { reader with handle := none, pendingReader := none }
    pure outcome
  else do
    let number ← resumeDelegate id identity index (inherited.bind (·.delegate))
    change fun reader =>
      { reader with pendingReader := some number, handle := some ⟨index, number, false⟩ }
    pure outcome

/-- What is saved behind the last resource. -/
def saveEnded : ReaderCall FailureCategory MultiResourceState := do
  passes fun _ => .userComponent
  pure ⟨resources.revision, resources.ordinals, none, 0⟩

/-- `MultiResourceReaderStream::update`. -/
def update (identity : String) : ReaderCall FailureCategory MultiResourceState := do
  let reader ← component
  match reader.sharedPoisoned with
  | some category => throw category
  | none =>
    match reader.handle with
    | some handle => embed id identity resources handle.index handle.stream 0
    | none => saveEnded resources

/-- `MultiResourceReaderStream::close`. -/
def close (outcome : StreamRuntimeOutcome) : ReaderCall FailureCategory Unit := do
  match (← component).handle with
  | none => pure ()
  | some handle => if handle.retired then pure () else closeStream id handle.stream outcome

end Reader

variable {Item : Type} {resources : ResourceSet} {contents : ResourceIdentity → List (Entry Item)}
  {attempt after : Attempt ReaderState} {delivered : List (Entry Item)}

section Stages

/-- Where a reader stands: its resource by index, and the number of its delegate. -/
inductive Phase where
  | spent
  | pending (index number : Nat)
  | reading (index number : Nat)
  | between (index number : Nat)
  | ended
  | poisoned (index number : Nat) (category : FailureCategory)

def Phase.state : Phase → ReaderState
  | spent => ⟨none, none, none, none, false, false, none⟩
  | pending index number =>
    ⟨some ⟨index, number, false⟩, some number, none, none, false, false, none⟩
  | reading index number =>
    ⟨some ⟨index, number, false⟩, none, none, some number, true, false, none⟩
  | between index number => ⟨some ⟨index, number, true⟩, none, none, none, true, true, none⟩
  | ended => ⟨none, none, none, none, true, false, none⟩
  | poisoned index number category =>
    ⟨some ⟨index, number, true⟩, none, some category, none, true, false, some category⟩

/-- The stream in use. -/
def Phase.current : Phase → Option Nat
  | pending _ number | reading _ number => some number
  | _ => none

/-- The entries in front of a resource. -/
def upTo (resources : ResourceSet) (contents : ResourceIdentity → List (Entry Item)) (index : Nat) :
    List (Entry Item) :=
  (resources.resources.take index).flatMap contents

/-- The entries of all resources, one behind the other. -/
def everything (resources : ResourceSet) (contents : ResourceIdentity → List (Entry Item)) :
    List (Entry Item) := resources.resources.flatMap contents

theorem upTo_succ (index : Nat) :
    upTo resources contents (index + 1) =
      upTo resources contents index ++ entriesAt resources contents index := by
  unfold upTo entriesAt
  rw [List.take_add_one, List.flatMap_append]
  cases resources.resources[index]? <;> simp

theorem upTo_length {index : Nat} (whole : resources.resources.length ≤ index) :
    upTo resources contents index = everything resources contents := by
  unfold upTo everything
  rw [List.take_of_length_le whole]

private theorem upTo_starts (index : Nat) :
    upTo resources contents index <+: everything resources contents := by
  refine ⟨(resources.resources.drop index).flatMap contents, ?_⟩
  unfold upTo everything
  rw [← List.flatMap_append, List.take_append_drop]

/-- Delivered are the resources in front, and of the one at an index the entries that its
delegate has passed. -/
structure Passed (resources : ResourceSet) (contents : ResourceIdentity → List (Entry Item))
    (index position : Nat) (delivered : List (Entry Item)) : Prop where
  known : index < resources.resources.length
  within : position ≤ (entriesAt resources contents index).length
  entries : delivered = upTo resources contents index ++
    (entriesAt resources contents index).take position

theorem Passed.starts {index position : Nat}
    (passed : Passed resources contents index position delivered) :
    delivered <+: everything resources contents := by
  refine List.IsPrefix.trans ?_ (upTo_starts (index + 1))
  rw [passed.entries, upTo_succ]
  exact List.prefix_append_right_inj _ |>.mpr (List.take_prefix _ _)

/-- What a delegate under a number has passed. -/
def Reached (resources : ResourceSet) (contents : ResourceIdentity → List (Entry Item))
    (streams : List Stream) (index number : Nat) (delivered : List (Entry Item)) : Prop :=
  ∃ stream, streams[number]? = some stream ∧ stream.state.resource = index ∧
    Passed resources contents index stream.state.position delivered

def Phase.Delivered (resources : ResourceSet) (contents : ResourceIdentity → List (Entry Item))
    (streams : List Stream) (delivered : List (Entry Item)) : Phase → Prop
  | spent | ended => delivered = everything resources contents
  | pending index number | reading index number =>
    Reached resources contents streams index number delivered
  | between index number | poisoned index number _ =>
    Reached resources contents streams index number delivered ∧
      delivered = upTo resources contents (index + 1)

/-- What holds of a reader in a phase, once some entries are delivered. -/
structure Stage (resources : ResourceSet) (contents : ResourceIdentity → List (Entry Item))
    (attempt : Attempt ReaderState) (phase : Phase) (delivered : List (Entry Item)) : Prop where
  state : attempt.component = phase.state
  held : Held attempt.streams phase.current
  delivered : phase.Delivered resources contents attempt.streams delivered
  boundary : ∀ stream ∈ attempt.streams, ∀ category,
    (StreamRuntimeOutcome.resourceBoundary, some category) ∈ stream.closings →
      ∃ index number, phase = .poisoned index number category

theorem Stage.starts {phase : Phase} (stage : Stage resources contents attempt phase delivered) :
    delivered <+: everything resources contents := by
  have holds := stage.delivered
  cases phase with
  | spent => exact holds ▸ List.prefix_rfl
  | ended => exact holds ▸ List.prefix_rfl
  | pending index number =>
    obtain ⟨_, _, _, passed⟩ := holds
    exact passed.starts
  | reading index number =>
    obtain ⟨_, _, _, passed⟩ := holds
    exact passed.starts
  | between index number =>
    obtain ⟨⟨_, _, _, passed⟩, _⟩ := holds
    exact passed.starts
  | poisoned index number category =>
    obtain ⟨⟨_, _, _, passed⟩, _⟩ := holds
    exact passed.starts

/-- What a read has delivered. -/
def deliveredBy : Except ReaderError (ReadOutcome Item) → List (Entry Item)
  | .ok (.item item) => [.ok item]
  | .error error => if error.checkpointAdvanced then [.error error.category] else []
  | _ => []

/-- What a read leads to; one that nothing disturbs goes on. -/
structure Reads (resources : ResourceSet) (contents : ResourceIdentity → List (Entry Item))
    (calm : Prop) (delivered : List (Entry Item))
    (result : Except ReaderError (ReadOutcome Item) × Attempt ReaderState) : Prop where
  stage : ∃ phase, Stage resources contents result.2 phase (delivered ++ deliveredBy result.1) ∧
    (result.1 = .ok .endOfInput → phase = .ended)
  goesOn : calm → result.1 = .ok .endOfInput ∨ deliveredBy result.1 ≠ []

end Stages

section Steps

theorem Stage.waits {phase : Phase} (stage : Stage resources contents attempt phase delivered)
    (waits : Waits attempt after) : Stage resources contents after phase delivered := by
  have reached : ∀ {index number : Nat},
      Reached resources contents attempt.streams index number delivered →
        Reached resources contents after.streams index number delivered := by
    rintro index number ⟨stream, found, rest⟩
    exact ⟨stream, waits.found found, rest⟩
  refine ⟨waits.component.trans stage.state, waits.held stage.held, ?_, ?_⟩
  · have holds := stage.delivered
    cases phase with
    | spent => exact holds
    | ended => exact holds
    | pending index number => exact reached holds
    | reading index number => exact reached holds
    | between index number => exact ⟨reached holds.1, holds.2⟩
    | poisoned index number category => exact ⟨reached holds.1, holds.2⟩
  · intro stream member category closed
    rcases waits.closings member with old | never
    · exact stage.boundary stream old category closed
    · rw [never] at closed
      cases closed

variable {calm : Prop}

theorem Reads.stopped {phase : Phase} {result} (answered : result = (.ok .stopped, after))
    (stage : Stage resources contents after phase delivered) (rough : ¬ calm) :
    Reads resources contents calm delivered result := by
  subst answered
  exact ⟨⟨phase, by simpa [deliveredBy] using stage, by simp⟩, fun holds => absurd holds rough⟩

theorem Reads.failed {phase : Phase} {category : FailureCategory} {result}
    (answered : result = (.error (.withCategory category), after))
    (stage : Stage resources contents after phase delivered) (rough : ¬ calm) :
    Reads resources contents calm delivered result := by
  subst answered
  refine ⟨⟨phase, ?_, by simp⟩, fun holds => absurd holds rough⟩
  simpa [deliveredBy, ReaderError.withCategory] using stage

theorem Reads.endOfInput {result} (answered : result = (.ok .endOfInput, after))
    (stage : Stage resources contents after .ended delivered) :
    Reads resources contents calm delivered result := by
  subst answered
  exact ⟨⟨.ended, by simpa [deliveredBy] using stage, fun _ => rfl⟩, fun _ => .inl rfl⟩

theorem Reads.imp {calm' : Prop} {result} (reads : Reads resources contents calm delivered result)
    (stronger : calm' → calm) : Reads resources contents calm' delivered result :=
  ⟨reads.stage, fun holds => reads.goesOn (stronger holds)⟩

/-- A delegate that has passed one more entry. -/
theorem Stage.moved {index number position : Nat} {stream : Stream} {entry : Entry Item}
    (stage : Stage resources contents attempt (.reading index number) delivered)
    (found : attempt.streams[number]? = some stream) (resource : stream.state.resource = index)
    (at_ : stream.state.position = position)
    (passed : Passed resources contents index position delivered)
    (next : (entriesAt resources contents index)[position]? = some entry) :
    Stage resources contents (attempt.moved number) (.reading index number)
      (delivered ++ [entry]) := by
  refine ⟨stage.state, stage.held.moves _, ?_, ?_⟩
  · refine ⟨stream.move fun delegate => { delegate with position := delegate.position + 1 }, ?_,
      resource, ?_⟩
    · exact moved_found found
    · have within := (List.getElem?_eq_some_iff.mp next).1
      change Passed resources contents index (stream.state.position + 1) (delivered ++ [entry])
      rw [at_]
      refine ⟨passed.known, within, ?_⟩
      rw [passed.entries, List.take_add_one, next, List.append_assoc]
      rfl
  · intro other member category closed
    obtain ⟨before, earlier, same⟩ := moved_closings member
    exact stage.boundary before earlier category (same ▸ closed)

/-- A delegate goes on by one entry, or its resource is done. -/
private theorem delegateNext_cases {index number : Nat}
    (stage : Stage resources contents attempt (.reading index number) delivered) :
    (runs (delegateNext resources contents number) attempt = (.ok .endOfInput, attempt) ∧
      delivered = upTo resources contents (index + 1)) ∨
    (runs (delegateNext resources contents number) attempt).1 ≠ .ok .endOfInput ∧
      Reads resources contents calm delivered
        (runs (delegateNext resources contents number) attempt) := by
  obtain ⟨stream, found, resource, passed⟩ := stage.delivered
  have reads : runs (delegateNext resources contents number) attempt =
      runs (pass number (entriesAt resources contents index)[stream.state.position]?) attempt := by
    unfold delegateNext
    rw [runs_bind]
    change runs (pass number (entriesAt resources contents
      (attempt.delegate number).resource)[(attempt.delegate number).position]?) attempt = _
    rw [delegate_eq found, resource]
  rw [reads]
  cases next : (entriesAt resources contents index)[stream.state.position]? with
  | none =>
    refine .inl ⟨rfl, ?_⟩
    have whole : stream.state.position = (entriesAt resources contents index).length :=
      Nat.le_antisymm passed.within (List.getElem?_eq_none_iff.mp next)
    rw [passed.entries, whole, List.take_length, upTo_succ]
  | some entry =>
    have moved := stage.moved found resource rfl passed next
    cases entry with
    | ok item =>
      exact .inr ⟨fun same => (by cases same),
        ⟨.reading index number, moved, fun same => (by cases same)⟩,
        fun _ => .inr (List.cons_ne_nil _ _)⟩
    | error category =>
      exact .inr ⟨fun same => (by cases same),
        ⟨.reading index number, moved, fun same => (by cases same)⟩,
        fun _ => .inr (List.cons_ne_nil _ _)⟩

private theorem delegateRead_cases {index number : Nat}
    (stage : Stage resources contents attempt (.reading index number) delivered) :
    (runs (delegateRead resources contents number) attempt = (.ok .endOfInput, attempt.drawn) ∧
      delivered = upTo resources contents (index + 1)) ∨
    (runs (delegateRead resources contents number) attempt).1 ≠ .ok .endOfInput ∧
      Reads resources contents attempt.Calm delivered
        (runs (delegateRead resources contents number) attempt) := by
  have drawn := stage.waits (.drawn attempt)
  unfold delegateRead
  rw [runs_bind, runs_draw]
  dsimp only
  have rough {hitch : Hitch} (next : attempt.script.head?.getD .fine = hitch)
      (hitches : hitch ≠ .fine) : ¬ attempt.Calm :=
    fun calm => hitches (next.symm.trans calm.head)
  cases next : attempt.script.head?.getD .fine with
  | fine => exact delegateNext_cases drawn
  | fails category =>
    exact .inr ⟨fun same => (by cases same), .failed rfl drawn (rough next (by simp))⟩
  | stops => exact .inr ⟨fun same => (by cases same), .stopped rfl drawn (rough next (by simp))⟩
  | misnamed other => exact delegateNext_cases drawn

/-- A stream that has been closed at the boundary of its resource. -/
theorem Stage.closed {index number : Nat} {failed : Option FailureCategory}
    (stage : Stage resources contents attempt (.reading index number) delivered) :
    Held (attempt.closed number (.resourceBoundary, failed)).streams none ∧
      (Reached resources contents (attempt.closed number (.resourceBoundary, failed)).streams index
        number delivered) ∧
      ∀ stream ∈ (attempt.closed number (.resourceBoundary, failed)).streams, ∀ category,
        (StreamRuntimeOutcome.resourceBoundary, some category) ∈ stream.closings →
          failed = some category := by
  obtain ⟨stream, found, resource, passed⟩ := stage.delivered
  refine ⟨stage.held.closes _, ⟨stream.close (.resourceBoundary, failed), closed_found found _,
    resource, passed⟩, ?_⟩
  intro other member category closed
  rcases mem_closed_closings member closed with now | ⟨before, earlier, already⟩
  · exact (Prod.mk.inj now).2.symm
  · obtain ⟨_, _, same⟩ := stage.boundary before earlier category already
    cases same

/-- The boundary of a resource: its stream is closed, and a failure is the last word. -/
theorem retire_cases {index number : Nat}
    (stage : Stage resources contents attempt (.reading index number) delivered)
    (done : delivered = upTo resources contents (index + 1)) :
    (∃ after, runs retire attempt = (.ok (), after) ∧
      Stage resources contents after (.between index number) delivered ∧
      (attempt.Calm → after.Calm)) ∨
    ∃ category after, runs retire attempt = (.error (.withCategory category), after) ∧
      Stage resources contents after (.poisoned index number category) delivered ∧
      ¬ attempt.Calm := by
  have drawn := stage.waits (.drawn attempt)
  obtain ⟨streams, script, reader⟩ := attempt
  obtain rfl : reader = Phase.state (.reading index number) := stage.state
  obtain ⟨failed, closes, calmly⟩ := @streamClose_runs _ ReaderError
    ⟨streams, script, Phase.state (.reading index number)⟩ number .resourceBoundary
  obtain ⟨held, reached, boundary⟩ := @Stage.closed _ _ _ _ _ _ _ failed drawn
  unfold retire
  rw [runs_bind, runs_component]
  dsimp only [Phase.state] at closes ⊢
  rw [runs_bind, closes]
  dsimp only
  cases failed with
  | none =>
    refine .inl ⟨_, rfl, ⟨rfl, held, ⟨reached, done⟩, fun stream member category closed => ?_⟩,
      fun calm => calm.drawn⟩
    cases boundary stream member category closed
  | some category =>
    refine .inr ⟨category, _, rfl, ⟨rfl, held, ⟨reached, done⟩,
      fun stream member other closed => ?_⟩, fun calm => (by cases calmly calm)⟩
    obtain rfl := Option.some.inj (boundary stream member other closed)
    exact ⟨index, number, rfl⟩

/-- The move to the next resource, which a failure leaves to be made. -/
private theorem transition_cases {index number : Nat}
    (stage : Stage resources contents attempt (.between index number) delivered) :
    (∃ after number', runs (transition resources) attempt = (.ok true, after) ∧
      index + 1 < resources.resources.length ∧
      Stage resources contents after (.reading (index + 1) number') delivered ∧
      (attempt.Calm → after.Calm)) ∨
    (∃ after, runs (transition resources) attempt = (.ok false, after) ∧
      Stage resources contents after .ended delivered) ∨
    ∃ category after,
      runs (transition resources) attempt = (.error (.withCategory category), after) ∧
      Stage resources contents after (.between index number) delivered ∧ ¬ attempt.Calm := by
  obtain ⟨streams, script, reader⟩ := attempt
  obtain rfl : reader = Phase.state (.between index number) := stage.state
  have clear : ∀ stream ∈ streams, ∀ category,
      (StreamRuntimeOutcome.resourceBoundary, some category) ∉ stream.closings := by
    intro stream member category closed
    obtain ⟨_, _, same⟩ := stage.boundary stream member category closed
    cases same
  unfold transition
  rw [runs_bind, runs_component]
  dsimp only [Phase.state]
  split
  · rename_i last
    refine .inr (.inl ⟨_, rfl, rfl, stage.held, ?_, fun stream member category closed => ?_⟩)
    · exact stage.delivered.2.trans (upTo_length last)
    · exact absurd closed (clear stream member category)
  · rename_i more
    rw [runs_bind]
    rcases @takeUp_cases _ _ ReaderError.withCategory
      ⟨streams, script, Phase.state (.between index number)⟩ (index + 1) with
      ⟨after, done, taken, calmly⟩ | ⟨category, after, failed, waits, rough⟩
    · dsimp only [Phase.state] at done
      rw [done]
      obtain ⟨stream, found, state⟩ := taken.found
      refine .inl ⟨_, _, rfl, Nat.not_le.mp more, ⟨?_, taken.held stage.held, ?_, ?_⟩, calmly⟩
      · change ({ after.component with reader := _, handle := _, transitioning := _ } :
          ReaderState) = _
        rw [taken.component]
        rfl
      · refine ⟨stream, found, congrArg Delegate.resource state, Nat.not_le.mp more, ?_, ?_⟩
        · rw [state]
          exact Nat.zero_le _
        · rw [state, List.take_zero, List.append_nil]
          exact stage.delivered.2
      · intro other member category closed
        rcases taken.closings other member with old | never
        · exact absurd closed (clear other old category)
        · rw [never] at closed
          cases closed
    · dsimp only [Phase.state] at failed
      rw [failed]
      exact .inr (.inr ⟨category, after, rfl, stage.waits waits, rough⟩)

variable {rounds index number : Nat}

/-- Behind the boundary of a resource the loop goes on with the next one. -/
private theorem goOn_reads
    (stage : Stage resources contents attempt (.between index number) delivered)
    (rest : ∀ (after : Attempt ReaderState) (number' : Nat),
      index + 1 < resources.resources.length →
      Stage resources contents after (.reading (index + 1) number') delivered →
        Reads resources contents after.Calm delivered
          (runs (readLoop resources contents rounds) after)) :
    Reads resources contents attempt.Calm delivered (runs (do
      if ← transition resources then readLoop resources contents rounds
      else pure .endOfInput) attempt) := by
  rw [runs_bind]
  rcases transition_cases stage with ⟨after, number', moved, more, reading, calmly⟩ |
    ⟨after, moved, ended⟩ | ⟨category, after, failed, between, rough⟩
  · rw [moved]
    exact (rest after number' more reading).imp calmly
  · rw [moved]
    exact .endOfInput rfl ended
  · rw [failed]
    exact .failed rfl between rough

/-- The loop goes on through the resources that are left. -/
private theorem readLoop_reads
    (stage : Stage resources contents attempt (.reading index number) delivered)
    (enough : resources.resources.length ≤ index + rounds) :
    Reads resources contents attempt.Calm delivered
      (runs (readLoop resources contents rounds) attempt) := by
  induction rounds generalizing attempt index number with
  | zero =>
    obtain ⟨_, _, _, passed⟩ := stage.delivered
    exact absurd passed.known (Nat.not_lt.mpr enough)
  | succ rounds ih =>
    have looks : runs (readLoop resources contents (rounds + 1)) attempt =
        runs (delegateRead resources contents number >>= deliver (do
          if ← transition resources then readLoop resources contents rounds
          else pure .endOfInput)) attempt := by
      conv_lhs => rw [readLoop, runs_bind, runs_component, stage.state]
      rfl
    rw [looks, runs_bind]
    rcases delegateRead_cases stage with ⟨done, whole⟩ | ⟨goes, reads⟩
    · rw [done]
      unfold deliver
      dsimp only
      rw [runs_bind]
      rcases retire_cases (stage.waits (.drawn attempt)) whole with
        ⟨after, retired, between, calmly⟩ | ⟨category, after, failed, poisoned, rough⟩
      · rw [retired]
        exact (goOn_reads between fun _ _ _ reading => ih reading (by omega)).imp
          fun calm => calmly calm.drawn
      · rw [failed]
        exact .failed rfl poisoned fun calm => rough calm.drawn
    · rcases result : runs (delegateRead resources contents number) attempt with
        ⟨failure | outcome, after⟩
      · rw [result] at reads
        exact reads
      · rw [result] at reads goes
        cases outcome with
        | item item => exact reads
        | stopped => exact reads
        | endOfInput => exact absurd rfl goes

/-- Every read of an attempt that runs. -/
theorem read_reads {phase : Phase}
    (stage : Stage resources contents attempt phase delivered) :
    Reads resources contents (attempt.Calm ∧ attempt.component.poisoned = none) delivered
      (runs (read resources contents) attempt) := by
  unfold read
  rw [runs_bind, runs_component, stage.state]
  obtain ⟨streams, script, reader⟩ := attempt
  obtain rfl : reader = phase.state := stage.state
  have boundary (other : ∀ index number category, phase ≠ .poisoned index number category)
      {next : Phase} : ∀ stream ∈ streams, ∀ category,
        (StreamRuntimeOutcome.resourceBoundary, some category) ∈ stream.closings →
          ∃ index number, next = .poisoned index number category := by
    intro stream member category closed
    obtain ⟨_, _, same⟩ := stage.boundary stream member category closed
    exact absurd same (other _ _ _)
  cases phase with
  | spent => exact .endOfInput rfl ⟨rfl, stage.held, stage.delivered, boundary (by simp)⟩
  | pending index number =>
    have reading : Stage resources contents
        ⟨streams, script, Phase.state (.reading index number)⟩ (.reading index number) delivered :=
      ⟨rfl, stage.held, stage.delivered, boundary (by simp)⟩
    exact (readLoop_reads reading (by omega)).imp And.left
  | reading index number => exact (readLoop_reads stage (by omega)).imp And.left
  | between index number =>
    exact (goOn_reads stage fun after number' more reading =>
      readLoop_reads reading (by omega)).imp And.left
  | ended => exact .endOfInput rfl stage
  | poisoned index number category => exact .failed rfl stage fun both => (by cases both.2)

end Steps

section Saved

variable {identity : String} {phase : Phase}

/-- A state stands for what had been delivered when it was saved, and is of these resources. -/
structure Restores (resources : ResourceSet) (contents : ResourceIdentity → List (Entry Item))
    (identity : String) (state : MultiResourceState) (delivered : List (Entry Item)) : Prop where
  revision : state.resourceSetRevision = resources.revision
  named : ∀ columns, state.delegate = some columns → columns.streamNamespace = identity
  place : (∃ columns, state.delegate = some columns ∧
      Passed resources contents state.resourceIndex columns.position delivered) ∨
    state.resourceIndex = resources.ordinals ∧ state.delegate = none ∧
      delivered = everything resources contents

theorem Restores.starts {state : MultiResourceState}
    (restores : Restores resources contents identity state delivered) :
    delivered <+: everything resources contents := by
  rcases restores.place with ⟨columns, _, passed⟩ | ⟨_, _, whole⟩
  · exact passed.starts
  · exact whole ▸ List.prefix_rfl

/-- A result that leaves the reader in its phase, and whose state restores what has been
delivered. -/
def Saves (resources : ResourceSet) (contents : ResourceIdentity → List (Entry Item))
    (identity : String) (phase : Phase) (delivered : List (Entry Item))
    (result : Except FailureCategory MultiResourceState × Attempt ReaderState) : Prop :=
  Stage resources contents result.2 phase delivered ∧
    ∀ state, result.1 = .ok state → Restores resources contents identity state delivered

theorem embed_saves {index number : Nat}
    (stage : Stage resources contents attempt phase delivered)
    (reached : Reached resources contents attempt.streams index number delivered) :
    Saves resources contents identity phase delivered
      (runs (embed id identity resources index number 0) attempt) := by
  obtain ⟨stream, found, resource, passed⟩ := reached
  obtain ⟨after, waits, ⟨failure, failed⟩ | saved⟩ :=
    @embed_cases _ _ id attempt identity resources index 0 number stream found
  · rw [failed]
    exact ⟨stage.waits waits, fun state same => by cases same⟩
  · rw [saved]
    refine ⟨stage.waits waits, fun state same => ?_⟩
    obtain rfl := Except.ok.inj same
    refine ⟨rfl, fun columns held => ?_, .inl ⟨_, rfl, passed⟩⟩
    obtain rfl := Option.some.inj held
    rfl

private theorem saveEnded_saves (stage : Stage resources contents attempt phase delivered)
    (whole : delivered = everything resources contents) :
    Saves resources contents identity phase delivered (runs (saveEnded resources) attempt) := by
  unfold saveEnded
  rw [runs_bind]
  rcases @passes_cases _ _ (fun _ => FailureCategory.userComponent) attempt with
    passed | ⟨category, failed, _⟩
  · rw [passed]
    refine ⟨stage.waits (.drawn attempt), fun state same => ?_⟩
    obtain rfl := Except.ok.inj same
    exact ⟨rfl, fun columns held => (by cases held), .inr ⟨rfl, rfl, whole⟩⟩
  · rw [failed]
    exact ⟨stage.waits (.drawn attempt), fun state same => by cases same⟩

theorem update_saves (stage : Stage resources contents attempt phase delivered) :
    Saves resources contents identity phase delivered
      (runs (update resources identity) attempt) := by
  have holds := stage.delivered
  unfold update
  rw [runs_bind, runs_component, stage.state]
  cases phase with
  | spent => exact saveEnded_saves stage holds
  | pending index number => exact embed_saves stage holds
  | reading index number => exact embed_saves stage holds
  | between index number => exact embed_saves stage holds.1
  | ended => exact saveEnded_saves stage holds
  | poisoned index number category => exact ⟨stage, fun state same => by cases same⟩

/-- A close leaves no stream in use. -/
theorem close_rests (stage : Stage resources contents attempt phase delivered)
    (outcome : StreamRuntimeOutcome) : Held (runs (close outcome) attempt).2.streams none := by
  have held := stage.held
  have closes {number : Nat} (current : phase.current = some number) :
      Held (@runs _ FailureCategory _ (closeStream id number outcome) attempt).2.streams none := by
    rw [current] at held
    obtain ⟨failed, closed⟩ := @closeStream_leaves _ FailureCategory id attempt number outcome
    rw [closed]
    exact held.closes _
  unfold close
  rw [runs_bind, runs_component, stage.state]
  cases phase with
  | spent => exact held
  | pending index number => exact closes rfl
  | reading index number => exact closes rfl
  | between index number => exact held
  | ended => exact held
  | poisoned index number category => exact held

/-- Where an attempt starts within a resource. -/
private theorem start_passed (fits : resources.resources.length < 2 ^ 32)
    {inherited : Option MultiResourceState} (fresh : inherited = none → delivered = [])
    (restored : ∀ state, inherited = some state →
      Restores resources contents identity state delivered)
    (within : (inherited.map (·.resourceIndex)).getD 0 < resources.ordinals) :
    Passed resources contents ((inherited.map (·.resourceIndex)).getD 0)
      (((inherited.bind (·.delegate)).map (·.position)).getD 0) delivered := by
  rw [ordinals_eq fits] at within
  cases inherited with
  | none =>
    refine ⟨within, Nat.zero_le _, ?_⟩
    rw [fresh rfl]
    rfl
  | some state =>
    rcases (restored state rfl).place with ⟨columns, held, passed⟩ | ⟨last, _, _⟩
    · simpa [held] using passed
    · rw [ordinals_eq fits] at last
      exact absurd last (Nat.ne_of_lt within)

/-- An attempt that starts behind the last resource. -/
private theorem start_whole (fits : resources.resources.length < 2 ^ 32)
    {inherited : Option MultiResourceState} (fresh : inherited = none → delivered = [])
    (restored : ∀ state, inherited = some state →
      Restores resources contents identity state delivered)
    (last : (inherited.map (·.resourceIndex)).getD 0 = resources.ordinals) :
    delivered = everything resources contents := by
  cases inherited with
  | none =>
    have none_left : resources.resources = [] := by
      rw [ordinals_eq fits] at last
      exact List.eq_nil_of_length_eq_zero last.symm
    rw [fresh rfl]
    unfold everything
    rw [none_left]
    rfl
  | some state =>
    rcases (restored state rfl).place with ⟨columns, _, passed⟩ | ⟨_, _, whole⟩
    · have known := passed.known
      rw [← ordinals_eq fits] at known
      exact absurd last (Nat.ne_of_lt known)
    · exact whole

/-- A state that restores is one of these resources, or behind them. -/
theorem Restores.known (fits : resources.resources.length < 2 ^ 32) {state : MultiResourceState}
    (restores : Restores resources contents identity state delivered) :
    state.resourceIndex ≤ resources.ordinals := by
  rcases restores.place with ⟨_, _, passed⟩ | ⟨last, _⟩
  · rw [ordinals_eq fits]
    exact passed.known.le
  · exact last.le

/-- A fresh reader opens where a state has it, or at the start; or it is disturbed, and
nothing is open. -/
theorem openStream_opens (fits : resources.resources.length < 2 ^ 32) (script : List Hitch)
    (inherited : Option MultiResourceState) (fresh : inherited = none → delivered = [])
    (restored : ∀ state, inherited = some state →
      Restores resources contents identity state delivered) :
    (∃ outcome after phase, runs (openStream resources identity inherited) ⟨[], script, .new⟩ =
      (.ok outcome, after) ∧ Stage resources contents after phase delivered) ∨
    ∃ failure after, runs (openStream resources identity inherited) ⟨[], script, .new⟩ =
      (.error failure, after) ∧ Held after.streams none ∧ script ≠ [] := by
  unfold openStream
  dsimp only
  split
  · rename_i other
    cases inherited with
    | none => cases other
    | some state => exact absurd (restored state rfl).revision (of_decide_eq_true other)
  split
  · rename_i beyond
    cases inherited with
    | none => exact absurd beyond (Nat.not_lt_zero _)
    | some state => exact absurd beyond (Nat.not_lt.mpr ((restored state rfl).known fits))
  split
  · rename_i last
    exact .inl ⟨_, _, .spent, rfl, rfl, held_nil, start_whole fits fresh restored last,
      fun stream member => by cases member⟩
  · rename_i within different
    have passed := start_passed fits fresh restored
      (Nat.lt_of_le_of_ne (Nat.not_lt.mp within) different)
    rw [runs_bind]
    rcases @resumeDelegate_cases _ _ id ⟨[], script, ReaderState.new⟩ identity
      ((inherited.map (·.resourceIndex)).getD 0) (inherited.bind (·.delegate)) with
      ⟨after, done, taken⟩ | ⟨failure, after, failed, waits, rough⟩
    · rw [done]
      obtain ⟨stream, found, state⟩ := taken.found
      refine .inl ⟨_, _, .pending ((inherited.map (·.resourceIndex)).getD 0) 0, rfl, ?_,
        taken.held held_nil, ?_, ?_⟩
      · change ({ after.component with pendingReader := _, handle := _ } : ReaderState) = _
        rw [taken.component]
        rfl
      · exact ⟨stream, found, congrArg Delegate.resource state, by rw [state]; exact passed⟩
      · intro other member category closed
        rcases taken.closings other member with old | never
        · cases old
        · rw [never] at closed
          cases closed
    · rw [failed]
      refine .inr ⟨_, _, rfl, waits.held held_nil, rough fun columns held => ?_⟩
      obtain ⟨state, rfl, inner⟩ := Option.bind_eq_some_iff.mp held
      exact (restored state rfl).named columns inner

end Saved

section Runs

open Restarts

variable (resources contents)

/-- The reader with its stream, as a component that is restarted: a call reads, and the
circumstances are how the delegates act and the outcome of a close. -/
def readerComponent (identity : String) :
    Component (Attempt ReaderState) MultiResourceState (List Hitch)
      (Except ReaderError (ReadOutcome Item)) (List Hitch × StreamRuntimeOutcome)
      (List (Entry Item)) where
  begins circumstance inherited :=
    let result := runs (openStream resources identity inherited) ⟨[], circumstance.1, .new⟩
    (result.2, result.1.isOk)
  call script attempt := runs (read resources contents) { attempt with script }
  save circumstance attempt :=
    let result := runs (update resources identity) { attempt with script := circumstance.1 }
    (result.1.toOption, result.2)
  close circumstance attempt :=
    (runs (close circumstance.2) { attempt with script := circumstance.1 }).2
  empty := []
  record delivered _ answer := delivered ++ deliveredBy answer

/-- An attempt that runs, with all it has answered. -/
def Running (attempt : Attempt ReaderState) (delivered : List (Entry Item))
    (answers : List (Except ReaderError (ReadOutcome Item))) : Prop :=
  ∃ phase, Stage resources contents attempt phase delivered ∧
    (.ok .endOfInput ∈ answers → phase = .ended) ∧
    answers.Pairwise fun first second => first = .ok .endOfInput → second = .ok .endOfInput

/-- What has been delivered are the first entries of the resources, and all of them at the end
of input, which is the last word. -/
structure InOrder (delivered : List (Entry Item))
    (answers : List (Except ReaderError (ReadOutcome Item))) : Prop where
  starts : delivered <+: everything resources contents
  ends : .ok .endOfInput ∈ answers → delivered = everything resources contents
  stays : answers.Pairwise fun first second => first = .ok .endOfInput → second = .ok .endOfInput

variable {resources contents}

theorem Stage.redrawn {phase : Phase} (stage : Stage resources contents attempt phase delivered)
    (script : List Hitch) : Stage resources contents { attempt with script } phase delivered :=
  ⟨stage.state, stage.held, stage.delivered, stage.boundary⟩

private theorem read_ended (stage : Stage resources contents attempt .ended delivered) :
    runs (read resources contents) attempt = (.ok .endOfInput, attempt) := by
  unfold read
  rw [runs_bind, runs_component, stage.state]
  change runs (readLoop resources contents (resources.resources.length + 1)) attempt = _
  rw [readLoop, runs_bind, runs_component, stage.state]
  rfl

theorem reader_disciplined (identity : String)
    (fits : resources.resources.length < 2 ^ 32) :
    Discipline (readerComponent resources contents identity) (Running resources contents)
      (fun attempt => Held attempt.streams none) (InOrder resources contents)
      (Restores resources contents identity) where
  starts := ⟨List.nil_prefix, fun member => (by cases member), .nil⟩
  resumes state delivered restores :=
    ⟨restores.starts, fun member => (by cases member), .nil⟩
  opens circumstance inherited delivered fresh restored := by
    dsimp only [readerComponent]
    rcases @openStream_opens _ resources contents delivered identity fits circumstance.1 inherited
      fresh restored with ⟨outcome, after, phase, opened, stage⟩ | ⟨failure, after, failed, held, _⟩
    · rw [opened]
      exact ⟨fun _ => ⟨phase, stage, fun member => (by cases member), .nil⟩,
        fun failed => (by cases failed)⟩
    · rw [failed]
      exact ⟨fun opened => (by cases opened), fun _ => held⟩
  calls script attempt delivered answers running := by
    obtain ⟨phase, stage, ended, stays⟩ := running
    have drawn := stage.redrawn script
    obtain ⟨next, after, last⟩ := (read_reads drawn).stage
    have forever : .ok .endOfInput ∈ answers →
        (runs (read resources contents) { attempt with script }).1 = .ok .endOfInput := by
      intro member
      obtain rfl := ended member
      rw [read_ended drawn]
    refine ⟨next, after, fun member => ?_, List.pairwise_append.mpr ⟨stays, by simp, ?_⟩⟩
    · rcases List.mem_append.mp member with early | now
      · exact last (forever early)
      · exact last (List.mem_singleton.mp now).symm
    · rintro first early second now rfl
      rw [List.mem_singleton.mp now]
      exact forever early
  saves circumstance attempt delivered answers running := by
    obtain ⟨phase, stage, ended, stays⟩ := running
    obtain ⟨after, restores⟩ := @update_saves _ _ _ _ _ identity _ (stage.redrawn circumstance.1)
    refine ⟨⟨phase, after, ended, stays⟩, fun saved given => restores saved ?_⟩
    dsimp only [readerComponent] at given
    cases result :
        (runs (update resources identity) { attempt with script := circumstance.1 }).1 with
    | error failure =>
      rw [result] at given
      cases given
    | ok state =>
      rw [result] at given
      exact congrArg Except.ok (Option.some.inj given)
  closes circumstance attempt delivered answers running := by
    obtain ⟨phase, stage, _⟩ := running
    exact close_rests (stage.redrawn _) _
  keeps attempt delivered answers running := by
    obtain ⟨phase, stage, ended, stays⟩ := running
    refine ⟨stage.starts, fun member => ?_, stays⟩
    obtain rfl := ended member
    exact stage.delivered

/-- A reader whose boundary close has failed. -/
def PoisonedBy (category : FailureCategory) (attempt : Attempt ReaderState) : Prop :=
  ∃ index number, attempt.component = (Phase.poisoned index number category).state

theorem reader_stuck (identity : String) (category : FailureCategory) :
    Stuck (readerComponent resources contents identity) (PoisonedBy category)
      (fun _ => .error (.withCategory category)) where
  calls script attempt poisoned := by
    obtain ⟨index, number, state⟩ := poisoned
    have answers : runs (read resources contents) { attempt with script } =
        (.error (.withCategory category), { attempt with script }) := by
      unfold read
      rw [runs_bind, runs_component]
      dsimp only
      rw [state]
      rfl
    dsimp only [readerComponent]
    rw [answers]
    exact ⟨rfl, index, number, state⟩
  saves circumstance attempt poisoned := by
    obtain ⟨index, number, state⟩ := poisoned
    have answers : runs (update resources identity) { attempt with script := circumstance.1 } =
        (.error category, { attempt with script := circumstance.1 }) := by
      unfold update
      rw [runs_bind, runs_component]
      dsimp only
      rw [state]
      rfl
    dsimp only [readerComponent]
    rw [answers]
    exact ⟨rfl, index, number, state⟩
  closes circumstance attempt poisoned := by
    obtain ⟨index, number, state⟩ := poisoned
    have answers : runs (close circumstance.2) { attempt with script := circumstance.1 } =
        (.ok (), { attempt with script := circumstance.1 }) := by
      unfold close
      rw [runs_bind, runs_component]
      dsimp only
      rw [state]
      rfl
    dsimp only [readerComponent]
    rw [answers]
    exact ⟨index, number, state⟩
  records delivered script := by
    simp [readerComponent, deliveredBy, ReaderError.withCategory]

variable (resources contents) in
/-- Before the first attempt. -/
def readerStart (identity : String) :
    Restarts.World (Attempt ReaderState) MultiResourceState (Except ReaderError (ReadOutcome Item))
      (List (Entry Item)) :=
  .initial (readerComponent resources contents identity) ⟨[], [], .new⟩

theorem reader_reopens {identity : String} (fits : resources.resources.length < 2 ^ 32)
    {state : MultiResourceState} (restores : Restores resources contents identity state delivered)
    (outcome : StreamRuntimeOutcome) :
    ((readerComponent resources contents identity).begins ([], outcome) (some state)).2 = true := by
  dsimp only [readerComponent]
  rcases @openStream_opens _ resources contents delivered identity fits [] (some state)
    (fun none_inherited => by cases none_inherited)
    (fun other same => Option.some.inj same ▸ restores) with
    ⟨_, after, _, opened, _⟩ | ⟨_, _, _, _, rough⟩
  · rw [opened]
    rfl
  · exact absurd rfl rough

/-- A call that nothing disturbs ends the input or delivers an entry. -/
theorem read_goesOn {answers : List (Except ReaderError (ReadOutcome Item))}
    (running : Running resources contents attempt delivered answers)
    (sane : attempt.component.poisoned = none) :
    (runs (read resources contents) { attempt with script := [] }).1 = .ok .endOfInput ∨
      delivered.length < (delivered ++
        deliveredBy (runs (read resources contents) { attempt with script := [] }).1).length := by
  obtain ⟨phase, stage, _⟩ := running
  refine ((read_reads (stage.redrawn [])).goesOn ⟨rfl, sane⟩).imp_right fun some_delivered => ?_
  rw [List.length_append]
  exact Nat.lt_add_of_pos_right (List.length_pos_of_ne_nil some_delivered)

abbrev ReaderWorld (Item : Type) :=
  Restarts.World (Attempt ReaderState) MultiResourceState (Except ReaderError (ReadOutcome Item))
    (List (Entry Item))

abbrev ReaderEvent := Restarts.Event (List Hitch) (List Hitch × StreamRuntimeOutcome)

/-- What holds of every world of a reader. -/
abbrev SoundReader (resources : ResourceSet) (contents : ResourceIdentity → List (Entry Item))
    (identity : String) (world : ReaderWorld Item) : Prop :=
  Restarts.Sound (Running resources contents) (fun attempt => Held attempt.streams none)
    (InOrder resources contents) (Restores resources contents identity) world

theorem reader_sound (identity : String) (fits : resources.resources.length < 2 ^ 32)
    (events : List ReaderEvent) :
    SoundReader resources contents identity ((readerStart resources contents identity).run
      (readerComponent resources contents identity) events) :=
  (sound_initial (reader_disciplined identity fits) held_nil).run
    (reader_disciplined identity fits) events

section Sound

variable {identity : String} {world : ReaderWorld Item}
  (sound : SoundReader resources contents identity world)

include sound

theorem reader_held : ∃ current, Held world.state.streams current := by
  by_cases running : world.status = .running
  · obtain ⟨phase, stage, _⟩ := sound.running running
    exact ⟨_, stage.held⟩
  · exact ⟨none, sound.resting running⟩

theorem reader_oneOpen (first second : Nat) (stream stream' : Stream)
    (found : world.state.streams[first]? = some stream)
    (found' : world.state.streams[second]? = some stream') (live : stream.Live)
    (live' : stream'.Live) : first = second := by
  obtain ⟨current, held⟩ := reader_held sound
  exact held.one_live found found' live live'

theorem reader_closedOnce (stream : Stream) (member : stream ∈ world.state.streams) :
    stream.closings.length ≤ 1 ∧ (stream.opened = false → stream.closings = []) := by
  obtain ⟨current, held⟩ := reader_held sound
  obtain ⟨number, found⟩ := List.mem_iff_getElem?.mp member
  exact held.closed_once found

theorem reader_allClosed (closed : world.status = .closed) (stream : Stream)
    (member : stream ∈ world.state.streams) (opened : stream.opened = true) :
    stream.closings.length = 1 := by
  obtain ⟨number, found⟩ := List.mem_iff_getElem?.mp member
  have resting := sound.resting (by simp [closed])
  exact Held.all_closed resting found opened

theorem reader_goesOn (running : world.status = .running)
    (sane : world.state.component.poisoned = none) :
    .ok .endOfInput ∈
        (world.perform (readerComponent resources contents identity) (.call [])).answers ∨
      world.history.length <
        (world.perform (readerComponent resources contents identity) (.call [])).history.length := by
  rw [Restarts.World.perform_call running]
  refine (read_goesOn (sound.running running) sane).imp_left fun answered => ?_
  exact List.mem_append_right _ (List.mem_singleton.mpr answered.symm)

theorem reader_final (running : world.status = .running) (stream : Stream)
    (member : stream ∈ world.state.streams) (category : FailureCategory)
    (failed : (StreamRuntimeOutcome.resourceBoundary, some category) ∈ stream.closings)
    (events : List ReaderEvent) (goOn : ∀ event ∈ events, event.goesOn) :
    (world.run (readerComponent resources contents identity) events).history = world.history ∧
      (world.run (readerComponent resources contents identity) events).saved = world.saved ∧
      ∃ count, (world.run (readerComponent resources contents identity) events).answers =
        world.answers ++ .replicate count (.error (.withCategory category)) := by
  obtain ⟨phase, stage, _⟩ := sound.running running
  obtain ⟨index, number, rfl⟩ := stage.boundary stream member category failed
  obtain ⟨history, saved, requests, answers⟩ :=
    (reader_stuck identity category).run ⟨index, number, stage.state⟩ events goOn
  exact ⟨history, saved, requests.length, by rw [answers, List.map_const']⟩

end Sound

/-- What a reader makes of its resources in any world: it delivers them in order and goes on
where nothing disturbs it, starts again from any state saved, opens one stream at a time,
closes none twice, and stops for good when a boundary close fails. -/
structure Concatenates (resources : ResourceSet)
    (contents : ResourceIdentity → List (Entry Item)) (identity : String)
    (world : Restarts.World (Attempt ReaderState) MultiResourceState
      (Except ReaderError (ReadOutcome Item)) (List (Entry Item))) : Prop where
  inOrder : InOrder resources contents world.history world.answers
  goesOn : world.status = .running → world.state.component.poisoned = none →
    .ok .endOfInput ∈
        (world.perform (readerComponent resources contents identity) (.call [])).answers ∨
      world.history.length <
        (world.perform (readerComponent resources contents identity) (.call [])).history.length
  reopens : ∀ (index : Nat) (outcome : StreamRuntimeOutcome), index < world.saved.length →
    (world.perform (readerComponent resources contents identity)
      (.restart ([], outcome) (some index))).status = .running
  oneOpen : ∀ (first second : Nat) (stream stream' : Stream),
    world.state.streams[first]? = some stream → world.state.streams[second]? = some stream' →
      stream.Live → stream'.Live → first = second
  closedOnce : ∀ stream ∈ world.state.streams,
    stream.closings.length ≤ 1 ∧ (stream.opened = false → stream.closings = [])
  allClosed : world.status = .closed → ∀ stream ∈ world.state.streams, stream.opened = true →
    stream.closings.length = 1
  final : world.status = .running → ∀ stream ∈ world.state.streams, ∀ category,
    (StreamRuntimeOutcome.resourceBoundary, some category) ∈ stream.closings →
      ∀ events : List (Restarts.Event (List Hitch) (List Hitch × StreamRuntimeOutcome)),
        (∀ event ∈ events, event.goesOn) →
          (world.run (readerComponent resources contents identity) events).history =
              world.history ∧
            (world.run (readerComponent resources contents identity) events).saved = world.saved ∧
            ∃ count, (world.run (readerComponent resources contents identity) events).answers =
              world.answers ++ .replicate count (.error (.withCategory category))

/-- Two small files, the first with a record that fails. -/
def twoFiles : ResourceSet :=
  .new (fun _ => 0) (["a", "b"].filterMap fun value => (ResourceIdentity.new value).toOption)

def twoContents (resource : ResourceIdentity) : List (Entry Nat) :=
  if resource.value = "a" then [.ok 1, .error .userComponent] else [.ok 2]

/-- The second file cannot be opened at first; the attempt is restarted behind the first. -/
def interrupted : List (Restarts.Event (List Hitch) (List Hitch × StreamRuntimeOutcome)) :=
  [.restart ([], .failed) none, .call [], .call [],
    .call [.fine, .fine, .fails .transientInfrastructure], .save ([], .failed),
    .close ([], .failed),
    .restart ([], .committed) (some 0), .call [], .call [], .close ([], .committed)]

end Runs

end OxideBatch.Item.MultiResource
