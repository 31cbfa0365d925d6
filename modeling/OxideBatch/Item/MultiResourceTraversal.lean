import OxideBatch.Item.MultiResourceReader

/-! A reader over resources, event by event: each read passes at most the next entry, each
restart goes on behind what its state had passed, and more resources than their numbers can
tell apart are not read to their end. -/

namespace OxideBatch.Item.MultiResource

open OxideBatch.Core OxideBatch.Lib Triple Handover Restarts

variable {Item : Type}

section Traversal

variable (resources : ResourceSet) (contents : ResourceIdentity → List (Entry Item))

/-- A reader as the restartable concatenation of its resources: it has passed their first
entries in declared order; a read passes the next entry or none, and one that nothing disturbs
passes it or ends the input; a restart goes on behind what the saved state had passed; the end of
input comes behind all entries and is then the only answer of its attempt; of the delegate streams
one is open at a time, each that was opened is closed once by the terminal close and none twice,
and behind a failed boundary close nothing is delivered, ended or saved. -/
structure Traverses (identity : String) (world : ReaderWorld Item) : Prop where
  inOrder : world.history = (everything resources contents).take world.history.length
  reads : ∀ script, world.status = .running →
    (world.perform (readerComponent resources contents identity) (.call script)).history =
        world.history ∨
      ∃ entry, (everything resources contents)[world.history.length]? = some entry ∧
        (world.perform (readerComponent resources contents identity) (.call script)).history =
          world.history ++ [entry]
  goesOn : world.status = .running → world.state.component.poisoned = none →
    .ok .endOfInput ∈
        (world.perform (readerComponent resources contents identity) (.call [])).answers ∨
      world.history.length <
        (world.perform (readerComponent resources contents identity) (.call [])).history.length
  restarts : ∀ index state passed, world.saved[index]? = some (state, passed) →
    ∀ script outcome,
      (world.perform (readerComponent resources contents identity)
        (.restart (script, outcome) (some index))).history = passed ∧
      passed = (everything resources contents).take passed.length ∧
      (script = [] → (world.perform (readerComponent resources contents identity)
        (.restart (script, outcome) (some index))).status = .running)
  ends : .ok .endOfInput ∈ world.answers → world.history = everything resources contents ∧
    ∀ events : List ReaderEvent, (∀ event ∈ events, event.goesOn) → ∃ count,
      (world.run (readerComponent resources contents identity) events).answers =
        world.answers ++ .replicate count (.ok .endOfInput)
  oneOpen : ∀ (first second : Nat) (stream stream' : Stream),
    world.state.streams[first]? = some stream → world.state.streams[second]? = some stream' →
      stream.Live → stream'.Live → first = second
  closedOnce : ∀ stream ∈ world.state.streams,
    stream.closings.length ≤ 1 ∧ (stream.opened = false → stream.closings = [])
  allClosed : world.status = .closed → ∀ stream ∈ world.state.streams, stream.opened = true →
    stream.closings.length = 1
  final : world.status = .running → ∀ stream ∈ world.state.streams, ∀ category,
    (StreamRuntimeOutcome.resourceBoundary, some category) ∈ stream.closings →
      ∀ events : List ReaderEvent, (∀ event ∈ events, event.goesOn) →
        (world.run (readerComponent resources contents identity) events).history =
            world.history ∧
          (world.run (readerComponent resources contents identity) events).saved = world.saved ∧
          ∃ count, (world.run (readerComponent resources contents identity) events).answers =
            world.answers ++ .replicate count (.error (.withCategory category))

variable {resources contents} {identity : String} {world : ReaderWorld Item}

private theorem take_of_starts {whole passed : List (Entry Item)} (starts : passed <+: whole) :
    passed = whole.take passed.length :=
  List.prefix_iff_eq_take.mp starts

/-- A read delivers one entry at most. -/
private theorem deliveredBy_short (answer : Except ReaderError (ReadOutcome Item)) :
    deliveredBy answer = [] ∨ ∃ entry, deliveredBy answer = [entry] := by
  cases answer with
  | error error =>
    simp only [deliveredBy]
    split
    · exact .inr ⟨_, rfl⟩
    · exact .inl rfl
  | ok outcome =>
    cases outcome with
    | item item => exact .inr ⟨_, rfl⟩
    | stopped => exact .inl rfl
    | endOfInput => exact .inl rfl

/-- One read passes the next entry of the resources, or none. -/
private theorem read_passes (sound : SoundReader resources contents identity world)
    (script : List Hitch) (runs : world.status = .running) :
    (world.perform (readerComponent resources contents identity) (.call script)).history =
        world.history ∨
      ∃ entry, (everything resources contents)[world.history.length]? = some entry ∧
        (world.perform (readerComponent resources contents identity) (.call script)).history =
          world.history ++ [entry] := by
  obtain ⟨phase, stage, _⟩ := sound.running runs
  obtain ⟨next, after, _⟩ := (read_reads (stage.redrawn script)).stage
  have starts := after.starts
  rw [World.perform_call runs]
  change world.history ++ deliveredBy
      (Triple.runs (read resources contents) { world.state with script }).1 = _ ∨ ∃ entry, _ ∧
    world.history ++ deliveredBy
      (Triple.runs (read resources contents) { world.state with script }).1 = _
  rcases deliveredBy_short (Triple.runs (read resources contents) { world.state with script }).1 with
    nothing | ⟨entry, one⟩
  · rw [nothing, List.append_nil]
    exact .inl rfl
  · rw [one] at starts ⊢
    refine .inr ⟨entry, ?_, rfl⟩
    obtain ⟨rest, whole⟩ := starts
    rw [← whole, List.append_assoc, List.getElem?_append_right (Nat.le_refl _), Nat.sub_self]
    rfl

/-- Behind the end of input an attempt answers nothing else. -/
private theorem ended_answers (fits : resources.resources.length < 2 ^ 32)
    (sound : SoundReader resources contents identity world)
    (ended : .ok .endOfInput ∈ world.answers) (events : List ReaderEvent)
    (goOn : ∀ event ∈ events, event.goesOn) : ∃ count,
      (world.run (readerComponent resources contents identity) events).answers =
        world.answers ++ .replicate count (.ok .endOfInput) := by
  obtain ⟨later, answers⟩ := @World.run_answers _ _ _ _ _ _
    (readerComponent resources contents identity) world events goOn
  have stays := (sound.run (reader_disciplined identity fits) events).kept.stays
  rw [answers] at stays ⊢
  refine ⟨later.length, congrArg _ (List.eq_replicate_iff.mpr ⟨rfl, fun answer member => ?_⟩)⟩
  exact (List.pairwise_append.mp stays).2.2 _ ended answer member rfl

end Traversal

section Beyond

/-- More resources than a `u32` counts: all are empty but the last, which holds two entries. -/
structure Beyond (resources : ResourceSet) (contents : ResourceIdentity → List (Entry Item))
    (first second : Entry Item) : Prop where
  many : resources.resources.length = 2 ^ 32
  empty : ∀ index < 2 ^ 32 - 1, entriesAt resources contents index = []
  last : entriesAt resources contents (2 ^ 32 - 1) = [first, second]

/-- The last resource is being read, behind its first entry. -/
structure AtLast (attempt : Attempt ReaderState) : Prop where
  sane : attempt.component.sharedPoisoned = none
  place : ∃ number stream, attempt.component.handle = some ⟨2 ^ 32 - 1, number, false⟩ ∧
    attempt.streams[number]? = some stream ∧ stream.state.position = 1

/-- What is saved then. -/
private theorem AtLast.saves {attempt : Attempt ReaderState} (atLast : AtLast attempt)
    (resources : ResourceSet) (identity : String) :
    (runs (update resources identity) { attempt with script := [] }).1 =
      .ok ⟨resources.revision, 2 ^ 32 - 1, some ⟨identity, 1⟩, 0⟩ := by
  obtain ⟨number, stream, handle, found, position⟩ := atLast.place
  unfold update
  rw [runs_bind, runs_component]
  dsimp only
  rw [atLast.sane]
  dsimp only
  rw [handle]
  dsimp only
  rw [← position]
  exact embed_calm identity resources _ 0 found rfl

variable {resources : ResourceSet} {contents : ResourceIdentity → List (Entry Item)}
  {first second : Entry Item} (beyond : Beyond resources contents first second)

include beyond

private theorem Beyond.ordinals : resources.ordinals = 2 ^ 32 - 1 := by
  unfold ResourceSet.ordinals
  rw [beyond.many]
  rfl

private theorem Beyond.upTo_empty {index : Nat} (within : index ≤ 2 ^ 32 - 1) :
    upTo resources contents index = [] := by
  induction index with
  | zero => rfl
  | succ index ih => rw [upTo_succ, ih (by omega), beyond.empty index (by omega), List.append_nil]

private theorem Beyond.everything_eq : everything resources contents = [first, second] := by
  have whole := @upTo_length _ resources contents (2 ^ 32 - 1 + 1) (by rw [beyond.many]; omega)
  rw [← whole, upTo_succ, beyond.upTo_empty (Nat.le_refl _), beyond.last, List.nil_append]

/-- Where one entry has been delivered the last resource is being read. -/
private theorem Beyond.passed_one {index position : Nat}
    (passed : Passed resources contents index position [first]) :
    index = 2 ^ 32 - 1 ∧ position = 1 := by
  have known := passed.known
  rw [beyond.many] at known
  have entries := passed.entries
  have within := passed.within
  by_cases here : index = 2 ^ 32 - 1
  · subst here
    refine ⟨rfl, ?_⟩
    rw [beyond.upTo_empty (Nat.le_refl _), beyond.last] at entries
    rw [beyond.last] at within
    have lengths := congrArg List.length entries
    simp only [List.length_singleton, List.nil_append, List.length_take, List.length_cons,
      List.length_nil] at lengths within
    omega
  · rw [beyond.upTo_empty (by omega), beyond.empty index (by omega)] at entries
    simp at entries

/-- An attempt that starts at the first resource. -/
private theorem Beyond.starts (identity : String) :
    ∃ attempt, runs (openStream resources identity none) ⟨[], [], .new⟩ = (.ok .initial, attempt) ∧
      Stage resources contents attempt (.pending 0 0) [] := by
  refine ⟨⟨[⟨⟨0, 0⟩, true, []⟩], [], Phase.state (.pending 0 0)⟩, ?_, rfl, ?_, ?_, ?_⟩
  · unfold openStream
    simp only [Option.isSome_none, Option.map_none, Option.getD_none, Option.any_none,
      beyond.ordinals, Option.bind_none]
    rfl
  · refine ⟨fun number holding found => ?_, fun number same => ?_⟩
    · cases number with
      | zero =>
        obtain rfl := Option.some.inj found
        exact ⟨fun _ => ⟨rfl, rfl⟩, fun other => absurd rfl other⟩
      | succ number => cases found
    · obtain rfl := Option.some.inj same
      exact Nat.one_pos
  · refine ⟨_, rfl, rfl, ?_, Nat.zero_le _, rfl⟩
    rw [beyond.many]
    omega
  · intro stream member category closed
    obtain rfl := List.mem_singleton.mp member
    cases closed

private theorem Beyond.atLast {attempt : Attempt ReaderState} {phase : Phase}
    (stage : Stage resources contents attempt phase [first]) : AtLast attempt := by
  have unfinished : [first] ≠ everything resources contents := by
    rw [beyond.everything_eq]
    simp
  have boundary {index number : Nat}
      (reached : Reached resources contents attempt.streams index number [first])
      (done : [first] = upTo resources contents (index + 1)) : False := by
    obtain ⟨stream, _, _, passed⟩ := reached
    obtain ⟨rfl, _⟩ := beyond.passed_one passed
    exact unfinished (done.trans (upTo_length (by rw [beyond.many]; omega)))
  have state := stage.state
  have delivered := stage.delivered
  cases phase with
  | spent => exact absurd delivered unfinished
  | ended => exact absurd delivered unfinished
  | pending index number =>
    obtain ⟨stream, found, _, passed⟩ := delivered
    obtain ⟨rfl, position⟩ := beyond.passed_one passed
    exact ⟨by rw [state]; rfl, number, stream, by rw [state]; rfl, found, position⟩
  | reading index number =>
    obtain ⟨stream, found, _, passed⟩ := delivered
    obtain ⟨rfl, position⟩ := beyond.passed_one passed
    exact ⟨by rw [state]; rfl, number, stream, by rw [state]; rfl, found, position⟩
  | between index number => exact (boundary delivered.1 delivered.2).elim
  | poisoned index number category => exact (boundary delivered.1 delivered.2).elim

/-- The first read goes through to the last resource. -/
private theorem Beyond.reads_first {attempt : Attempt ReaderState}
    (stage : Stage resources contents attempt (.pending 0 0) []) :
    deliveredBy (runs (read resources contents) { attempt with script := [] }).1 = [first] ∧
      AtLast (runs (read resources contents) { attempt with script := [] }).2 := by
  have reads := read_reads (stage.redrawn [])
  obtain ⟨phase, after, ended⟩ := reads.stage
  have sane : attempt.component.poisoned = none := by rw [stage.state]; rfl
  rw [List.nil_append] at after
  have one : deliveredBy (runs (read resources contents) { attempt with script := [] }).1 =
      [first] := by
    have starts := after.starts
    rw [beyond.everything_eq] at starts
    rcases deliveredBy_short (runs (read resources contents) { attempt with script := [] }).1 with
      nothing | ⟨entry, one⟩
    · rcases reads.goesOn ⟨rfl, sane⟩ with finished | some_delivered
      · have whole := after.delivered
        rw [ended finished, nothing] at whole
        exact absurd (whole.trans beyond.everything_eq) (by simp)
      · exact absurd nothing some_delivered
    · rw [one, List.cons_prefix_cons] at starts
      rw [one, starts.1]
  rw [one] at after
  exact ⟨one, beyond.atLast after⟩

/-- A restart from there begins behind all resources. -/
private theorem Beyond.restarts (identity : String) :
    runs (openStream resources identity
      (some ⟨resources.revision, 2 ^ 32 - 1, some ⟨identity, 1⟩, 0⟩)) ⟨[], [], .new⟩ =
      (.ok .restored, ⟨[], [], .new⟩) := by
  unfold openStream
  simp only [Option.isSome_some, Option.map_some, Option.getD_some, Option.any_some,
    beyond.ordinals, ne_eq, not_true_eq_false, decide_false, Bool.false_eq_true, if_false,
    lt_irrefl, if_true]
  rfl

/-- One entry is read, the attempt is restarted from the state saved behind it, and a read
follows. -/
def lapsing : List ReaderEvent :=
  [.restart ([], .failed) none, .call [], .save ([], .failed), .close ([], .failed),
    .restart ([], .failed) (some 0), .call []]

/-- The restart passes over the rest of the last resource. -/
private theorem Beyond.lapses (identity : String) :
    ((readerStart resources contents identity).run
        (readerComponent resources contents identity) lapsing).history = [first] ∧
      .ok .endOfInput ∈ ((readerStart resources contents identity).run
        (readerComponent resources contents identity) lapsing).answers := by
  obtain ⟨attempt, opened, stage⟩ := beyond.starts identity
  obtain ⟨one, atLast⟩ := beyond.reads_first stage
  have saved := atLast.saves resources identity
  have begun : (readerStart resources contents identity).perform
      (readerComponent resources contents identity) (.restart ([], .failed) none) =
        ⟨attempt, .running, [], [], []⟩ := by
    simp only [readerStart, World.perform, World.attempt, Restarts.World.initial, readerComponent,
      opened]
    rfl
  have first_read : (⟨attempt, .running, [], [], []⟩ : ReaderWorld Item).perform
      (readerComponent resources contents identity) (.call []) =
        ⟨(runs (read resources contents) { attempt with script := [] }).2, .running, [first],
          [(runs (read resources contents) { attempt with script := [] }).1], []⟩ := by
    rw [World.perform_call rfl]
    simp only [readerComponent, one]
    rfl
  generalize runs (read resources contents) { attempt with script := [] } = result
    at first_read atLast saved
  obtain ⟨answer, after⟩ := result
  have stored : (⟨after, .running, [first], [answer], []⟩ : ReaderWorld Item).perform
      (readerComponent resources contents identity) (.save ([], .failed)) =
        ⟨(runs (update resources identity) { after with script := [] }).2, .running, [first],
          [answer], [(⟨resources.revision, 2 ^ 32 - 1, some ⟨identity, 1⟩, 0⟩, [first])]⟩ := by
    simp only [World.perform, readerComponent, if_true, saved]
    rfl
  have again : ∀ state : Attempt ReaderState,
      (⟨state, .closed, [first], [answer],
        [(⟨resources.revision, 2 ^ 32 - 1, some ⟨identity, 1⟩, 0⟩, [first])]⟩ :
          ReaderWorld Item).perform (readerComponent resources contents identity)
            (.restart ([], .failed) (some 0)) =
        ⟨⟨[], [], .new⟩, .running, [first], [],
          [(⟨resources.revision, 2 ^ 32 - 1, some ⟨identity, 1⟩, 0⟩, [first])]⟩ := by
    intro state
    simp only [World.perform, World.attempt, readerComponent, List.getElem?_cons_zero,
      beyond.restarts identity]
    rfl
  unfold World.run lapsing
  simp only [List.foldl_cons, List.foldl_nil]
  rw [begun, first_read, stored]
  have closed : ∀ state : Attempt ReaderState,
      (⟨state, .running, [first], [answer],
        [(⟨resources.revision, 2 ^ 32 - 1, some ⟨identity, 1⟩, 0⟩, [first])]⟩ :
          ReaderWorld Item).perform (readerComponent resources contents identity)
            (.close ([], .failed)) =
        ⟨(readerComponent resources contents identity).close ([], .failed) state, .closed, [first],
          [answer], [(⟨resources.revision, 2 ^ 32 - 1, some ⟨identity, 1⟩, 0⟩, [first])]⟩ :=
    fun state => by simp only [World.perform, if_true]
  rw [closed, again, World.perform_call rfl]
  exact ⟨rfl, List.mem_singleton.mpr rfl⟩

end Beyond

private theorem value_of_new {value : String} {resource : ResourceIdentity}
    (made : ResourceIdentity.new value = .ok resource) : resource.value = value := by
  unfold ResourceIdentity.new at made
  split at made
  · cases made
  split at made
  · cases made
  split at made
  · cases made
  · cases made
    rfl

/-- As many empty resources, and one with two entries behind them. -/
private theorem padded {empty last : ResourceIdentity}
    {contents : ResourceIdentity → List (Entry Item)} {first second : Entry Item}
    (nothing : contents empty = []) (two : contents last = [first, second]) (count : Nat) :
    let resources := ResourceSet.new (fun _ => 0) (List.replicate count empty ++ [last])
    resources.resources.length = count + 1 ∧
      (∀ index < count, entriesAt resources contents index = []) ∧
      entriesAt resources contents count = [first, second] := by
  refine ⟨by simp [ResourceSet.new], fun index within => ?_, ?_⟩
  · unfold entriesAt ResourceSet.new
    rw [List.getElem?_append_left (by simpa using within), List.getElem?_replicate, if_pos within,
      Option.map_some, nothing]
    rfl
  · unfold entriesAt ResourceSet.new
    rw [List.getElem?_append_right (by simp), List.length_replicate, Nat.sub_self]
    exact two

end OxideBatch.Item.MultiResource
