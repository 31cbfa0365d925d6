import OxideBatch.Chunk.Candidates
import OxideBatch.Chunk.StreamStep

/-! The streams of a chunk step: they are opened in order, and each one that opened is closed
once behind the loop, in reverse order, whatever fails. -/

namespace OxideBatch.Chunk

open OxideBatch.Core OxideBatch.Lib Program

variable {I O : Type}

/-- The stream whose open returned `Ok`. -/
def StepEvent.opens (event : StepEvent I O) : Option Nat :=
  match event with
  | .around (.openStream index _) true => some index
  | _ => none

/-- The stream that was closed. -/
def StepEvent.closes (event : StepEvent I O) : Option Nat :=
  match event with
  | .around (.closeStream index _) _ => some index
  | _ => none

def StepEvent.closeFails (event : StepEvent I O) : Bool :=
  match event with
  | .around (.closeStream _ _) false => true
  | _ => false

def opensOf (trace : StepTrace I O) : List Nat := trace.filterMap (·.opens)

def closesOf (trace : StepTrace I O) : List Nat := trace.filterMap (·.closes)

/-- A commit is handed an envelope of each stream, as the stream answered it and under the
stream's namespace. -/
def HandedAt (streams : List StreamRegistration) (trace : StepTrace I O) (event : StepEvent I O) :
    Prop :=
  match event with
  | .looped ⟨.commit _ _ componentState _, _⟩ =>
    componentState.map (·.nameSpace) = streams.map (·.identity) ∧
      ∀ index envelope, componentState[index]? = some envelope →
        .looped ⟨.updateStream index, .ok envelope⟩ ∈ trace
  | _ => True

/-- The same surroundings, but every close succeeds. -/
def StepEnvironment.unfailing (env : StepEnvironment I O) : StepEnvironment I O where
  around trace query :=
    match query with
    | .closeStream _ _ => true
    | query => env.around trace query
  loop := env.loop

/-- The life of the streams of a step: they are opened in order, each that opened is closed
once, in reverse order and behind everything else; a commit is handed what its streams answered;
and a failed close shows in the report but changes none of its totals. -/
structure StreamLife (streams : List StreamRegistration) (result calm : Option ChunkStepReport)
    (trace : StepTrace I O) : Prop where
  opens : ∃ count ≤ streams.length, opensOf trace = List.range count
  closes : result.isSome = true → ∃ body ending, trace = body ++ ending ∧ closesOf body = [] ∧
    (∀ event ∈ ending, event.closes.isSome = true) ∧
    closesOf ending = (opensOf trace).reverse
  unclosed : result = none → closesOf trace = []
  hands : Throughout (HandedAt streams) trace
  shows : ∀ report ∈ result, report.streamCloseFailed = trace.any (·.closeFails) ∧
    (trace.any (·.closeFails) = true → report.outcome ≠ .completed)
  totals : ∀ report ∈ result, ∃ undisturbed ∈ calm,
    report.toChunkExecutionReport = { undisturbed.toChunkExecutionReport with
      outcome := report.outcome, originalOutcome := report.originalOutcome } ∧
    (undisturbed.outcome ≠ .completed → report.outcome = undisturbed.outcome)

section Closes

private theorem opensOf_append (front back : StepTrace I O) :
    opensOf (front ++ back) = opensOf front ++ opensOf back := List.filterMap_append

private theorem closesOf_append (front back : StepTrace I O) :
    closesOf (front ++ back) = closesOf front ++ closesOf back := List.filterMap_append

/-- A close opens nothing. -/
private theorem opens_of_closes {event : StepEvent I O} (closes : event.closes.isSome = true) :
    event.opens = none := by
  cases event with
  | looped event => rfl
  | around query answer => cases query <;> first | rfl | cases closes

private theorem closeFails_closes {event : StepEvent I O} (fails : event.closeFails = true) :
    event.closes.isSome = true := by
  cases event with
  | looped event => cases fails
  | around query answer => cases query <;> first | rfl | cases fails

private theorem closeFails_none {body : StepTrace I O} (closes : closesOf body = []) :
    body.any (·.closeFails) = false := by
  refine List.any_eq_false.mpr fun event member fails => ?_
  have none_closed := List.filterMap_eq_nil_iff.mp closes event member
  have closed := closeFails_closes fails
  rw [none_closed] at closed
  cases closed

/-- Events that close the streams opened, last first, and whether a close failed. -/
private structure ClosesBack (opened : List Nat) (closeFailed : Bool) (ending : StepTrace I O) :
    Prop where
  only : ∀ event ∈ ending, event.closes.isSome = true
  closes : closesOf ending = opened.reverse
  failed : ending.any (·.closeFails) = closeFailed

variable (env : StepEnvironment I O)

private theorem closeEach_closes (outcome : StreamRuntimeOutcome) (indices : List Nat)
    (trace : StepTrace I O) :
    ∃ closeFailed ending, closeEach env outcome indices trace = (closeFailed, trace ++ ending) ∧
      ClosesBack indices.reverse closeFailed ending ∧
      (closeEach env.unfailing outcome indices trace).1 = false := by
  induction indices generalizing trace with
  | nil => exact ⟨false, [], by rw [List.append_nil]; rfl, ⟨by simp, rfl, rfl⟩, rfl⟩
  | cons index indices ih =>
    let answer := env.around trace (.closeStream index outcome)
    obtain ⟨closeFailed, ending, closed, closing, _⟩ :=
      ih (trace ++ [.around (.closeStream index outcome) answer])
    obtain ⟨_, _, _, _, calm⟩ :=
      ih (trace ++ [.around (.closeStream index outcome) true])
    refine ⟨!answer || closeFailed, .around (.closeStream index outcome) answer :: ending, ?_, ?_,
      calm⟩
    · change ((!answer || (closeEach env outcome indices _).1),
        (closeEach env outcome indices _).2) = _
      rw [closed, List.append_assoc]
      rfl
    · refine ⟨List.forall_mem_cons.mpr ⟨rfl, closing.only⟩, ?_, ?_⟩
      · have rest := closing.closes
        rw [List.reverse_reverse] at rest ⊢
        exact congrArg (index :: ·) rest
      · rw [List.any_cons, closing.failed]
        cases answer <;> rfl

/-- What the closes make of a report. -/
private structure Merged (report : ChunkExecutionReport) (closed : ChunkStepReport)
    (closeFailed : Bool) : Prop where
  shown : closed.streamCloseFailed = closeFailed
  failed : closeFailed = true → closed.outcome ≠ .completed
  kept : closed.toChunkExecutionReport = { report with
    outcome := closed.outcome, originalOutcome := closed.originalOutcome }
  primary : report.outcome ≠ .completed → closed.outcome = report.outcome

private theorem closing_merged (report : ChunkExecutionReport) (closeFailed : Bool) :
    Merged report (report.closing closeFailed) closeFailed := by
  cases closeFailed with
  | false => exact ⟨rfl, fun fails => (Bool.false_ne_true fails).elim, rfl, fun _ => rfl⟩
  | true =>
    change Merged report report.withStreamCloseFailure true
    unfold ChunkExecutionReport.withStreamCloseFailure
    split
    · next completed => exact ⟨rfl, by simp, rfl, fun other => (other completed).elim⟩
    · next incomplete => exact ⟨rfl, fun _ => incomplete, rfl, fun _ => rfl⟩

end Closes

section Unclosing

/-- A program that closes no stream, and so runs alike where every close succeeds. -/
private def Unclosing {α : Type} (after : α → StepTrace I O → Prop)
    (program : StepEnvironment I O → StepM I O α) : Prop :=
  ∀ env trace, ∃ value body, program env trace = (value, trace ++ body) ∧
    program env.unfailing trace = (value, trace ++ body) ∧ closesOf body = [] ∧ after value body

variable {α β : Type}

private theorem unclosing_pure {after : α → StepTrace I O → Prop} {value : α}
    (holds : after value []) : Unclosing after fun _ => (pure value : StepM I O α) :=
  fun _ trace => ⟨value, [], by rw [List.append_nil]; rfl, by rw [List.append_nil]; rfl, rfl, holds⟩

private theorem unclosing_bind {middle : α → StepTrace I O → Prop}
    {after : β → StepTrace I O → Prop} {program : StepEnvironment I O → StepM I O α}
    {next : StepEnvironment I O → α → StepM I O β} (first : Unclosing middle program)
    (second : ∀ value front, middle value front →
      Unclosing (fun result back => after result (front ++ back)) fun env => next env value) :
    Unclosing after fun env => program env >>= next env := by
  intro env trace
  obtain ⟨value, front, here, calm, unclosed, passed⟩ := first env trace
  obtain ⟨result, back, there, calm', unclosed', holds⟩ :=
    second value front passed env (trace ++ front)
  have begins : ∀ env' : StepEnvironment I O, program env' trace = (value, trace ++ front) →
      (program env' >>= next env') trace = next env' value (trace ++ front) := by
    intro env' same
    change next env' (program env' trace).1 (program env' trace).2 = _
    rw [same]
  refine ⟨result, front ++ back, ?_, ?_, ?_, holds⟩
  · rw [← List.append_assoc]
    exact (begins env here).trans there
  · rw [← List.append_assoc]
    exact (begins env.unfailing calm).trans calm'
  · rw [closesOf_append, unclosed, unclosed', List.append_nil]

private theorem unclosing_ask {query : StepQuery} {after : query.Answer → StepTrace I O → Prop}
    (other : ∀ index outcome, query ≠ .closeStream index outcome)
    (holds : ∀ answer, after answer [.around query answer]) :
    Unclosing after fun env => askAround env query := by
  intro env trace
  have same : env.unfailing.around trace query = env.around trace query := by
    cases query <;> first | rfl | exact (other _ _ rfl).elim
  refine ⟨env.around trace query, [.around query (env.around trace query)], rfl, ?_, ?_, holds _⟩
  · change (env.unfailing.around trace query, _) = _
    rw [same]
  · cases query <;> first | rfl | exact (other _ _ rfl).elim

end Unclosing

section Pending

/-- The events of a step so far: its first streams are open, and its commits were handed what
they answered. -/
private structure Lived (streams : List StreamRegistration) (opened : List Nat)
    (body : StepTrace I O) : Prop where
  bounded : ∃ count ≤ streams.length, opened = List.range count
  opens : opensOf body = opened
  hands : Throughout (HandedAt streams) body

variable (env : StepEnvironment I O) (inheritedState : List ComponentStateEnvelope)

/-- Opens the streams in turn, until one is not opened. -/
private def openUntil : Nat → List StreamRegistration → List Nat → StepM I O (Bool × List Nat)
  | _, [], opened => pure (true, opened)
  | index, registration :: streams, opened => do
    if ← openStream env inheritedState index registration then
      openUntil (index + 1) streams (opened ++ [index])
    else pure (false, opened)

/-- What the opening phase makes of the streams opened. -/
private def concludeOpening (progress : InheritedStepProgress) (opening : Bool × List Nat) :
    StepM I O StreamOpenPhaseResult :=
  if opening.1 then pure (.opened progress opening.2)
  else do
    let closeFailed ← closeStreams env opening.2 .failed
    pure (.failed (.failed .streamOpen) closeFailed)

private theorem openStreams_eq (progress : InheritedStepProgress) (index : Nat)
    (streams : List StreamRegistration) (opened : List Nat) :
    openStreams env progress inheritedState index streams opened =
      openUntil env inheritedState index streams opened >>= concludeOpening env progress := by
  induction streams generalizing index opened with
  | nil => rfl
  | cons registration streams ih =>
    rw [openStreams, openUntil, bind_assoc]
    refine bind_congr fun accepted => ?_
    cases accepted with
    | false => rfl
    | true => exact ih (index + 1) (opened ++ [index])

/-- The streams opened behind some others, in order. -/
private def OpenedBehind (index : Nat) (streams : List StreamRegistration) (opened : List Nat)
    (body : StepTrace I O) : Prop :=
  (∃ count ≤ streams.length, opensOf body = List.range' index count) ∧
    opened = List.range index ++ opensOf body ∧ ∀ event, .looped event ∉ body

private theorem openUntil_opens (index : Nat) (streams : List StreamRegistration) :
    Unclosing (fun result body => OpenedBehind index streams result.2 body)
      fun env : StepEnvironment I O => openUntil env inheritedState index streams
        (List.range index) := by
  induction streams generalizing index with
  | nil =>
    exact unclosing_pure ⟨⟨0, le_refl _, rfl⟩, (List.append_nil _).symm, by simp⟩
  | cons registration streams ih =>
    have stopped : ∀ front : StepTrace I O, opensOf front = [] → (∀ event, .looped event ∉ front) →
        Unclosing (fun result back =>
            OpenedBehind index (registration :: streams) result.2 (front ++ back))
          fun _ => (pure (false, List.range index) : StepM I O (Bool × List Nat)) := by
      intro front opens apart
      refine unclosing_pure ⟨⟨0, Nat.zero_le _, ?_⟩, ?_, ?_⟩
      · rw [List.append_nil, opens]
        rfl
      · rw [List.append_nil, opens, List.append_nil]
      · rw [List.append_nil]
        exact apart
    refine @unclosing_bind I O Bool (Bool × List Nat)
      (fun accepted front => opensOf front = (if accepted then [index] else []) ∧
        ∀ event, .looped event ∉ front) _
      (fun env => openStream env inheritedState index registration)
      (fun env accepted => if accepted then openUntil env inheritedState (index + 1) streams
        (List.range index ++ [index]) else pure (false, List.range index)) ?_ ?_
    · unfold openStream
      cases registration.inherits inheritedState with
      | none => exact unclosing_pure ⟨rfl, by simp⟩
      | some inherited =>
        refine @unclosing_ask I O (.openStream index inherited) _ (by simp) fun accepted => ?_
        cases accepted with
        | false => exact ⟨rfl, by simp⟩
        | true => exact ⟨rfl, by simp⟩
    · rintro accepted front ⟨opens, apart⟩
      cases accepted with
      | false => exact stopped front opens apart
      | true =>
        rw [← List.range_succ]
        intro env trace
        obtain ⟨result, back, here, calm, unclosed, ⟨count, within, further⟩, opened, apart'⟩ :=
          ih (index + 1) env trace
        refine ⟨result, back, here, calm, unclosed, ⟨count + 1, Nat.succ_le_succ within, ?_⟩, ?_,
          ?_⟩
        · rw [opensOf_append, opens, further, List.range'_succ]
          rfl
        · rw [opened, List.range_succ, List.append_assoc, opensOf_append, opens]
          rfl
        · intro event member
          exact (List.mem_append.mp member).elim (apart event) (apart' event)

variable (components : Components) (streams : List StreamRegistration) (durable : Bool)
  (fuel rounds : Nat)

/-- A step without its closes: its report, the streams it opened, and the outcome they are to be
closed with. -/
private def pendingStep :
    StepM I O (Option (ChunkExecutionReport × List Nat × StreamRuntimeOutcome)) := do
  let failed := fun opened outcome =>
    some ((ExecutionState.inheriting .zero .zero 0).report outcome none, opened,
      StreamRuntimeOutcome.failed)
  match ← loadComponentState env durable streams with
  | .error _ => pure (failed [] (.failed .streamOpen))
  | .ok inheritedState =>
    match ← loadProgress env durable components.fault.isSome with
    | .error outcome => pure (failed [] outcome)
    | .ok progress => do
      let opening ← openUntil env inheritedState 0 streams []
      if opening.1 then do
        let report ← runLoop env components streams fuel rounds progress
        pure (report.map fun report => (report, opening.2, runtimeOutcome report.outcome))
      else pure (failed opening.2 (.failed .streamOpen))

private def closePending
    (pending : Option (ChunkExecutionReport × List Nat × StreamRuntimeOutcome)) :
    StepM I O (Option ChunkStepReport) := do
  match pending with
  | none => pure none
  | some (report, opened, outcome) => do
    let closeFailed ← closeStreams env opened outcome
    pure (some (report.closing closeFailed))

private theorem closeOpenedStreams_eq (opened : List Nat) (report : ChunkExecutionReport) :
    (do
      let closed ← closeOpenedStreams env opened report
      pure (some closed) : StepM I O _) =
      closePending env (some (report, opened, runtimeOutcome report.outcome)) := by
  unfold closeOpenedStreams
  split
  · next unopened =>
    subst unopened
    rfl
  · rfl

private theorem executeChunkStep_eq :
    executeChunkStep env components streams durable fuel rounds =
      pendingStep env components streams durable fuel rounds >>= closePending env := by
  unfold executeChunkStep inheritedProgress pendingStep
  rw [bind_assoc, bind_assoc]
  refine bind_congr fun loaded => ?_
  cases loaded with
  | error failure => rfl
  | ok inheritedState =>
    dsimp only
    rw [bind_assoc, bind_assoc]
    refine bind_congr fun loaded => ?_
    cases loaded with
    | error outcome => rfl
    | ok progress =>
      dsimp only
      rw [openStreams_eq, bind_assoc, bind_assoc]
      refine bind_congr fun opening => ?_
      obtain ⟨whole, opened⟩ := opening
      cases whole with
      | false => rfl
      | true =>
        have concluded : concludeOpening env progress (true, opened) =
          pure (.opened progress opened) := rfl
        rw [concluded, pure_bind]
        dsimp only
        rw [if_pos rfl, bind_assoc]
        refine bind_congr fun report => ?_
        cases report with
        | none => rfl
        | some report => exact closeOpenedStreams_eq env opened report

/-- Events that neither open a stream nor come from the loop. -/
private structure Aloof (body : StepTrace I O) : Prop where
  opens : opensOf body = []
  apart : ∀ event, .looped event ∉ body

private theorem aloof_nil : Aloof ([] : StepTrace I O) := ⟨rfl, by simp⟩

private theorem Aloof.append {front back : StepTrace I O} (first : Aloof front)
    (second : Aloof back) : Aloof (front ++ back) :=
  ⟨by rw [opensOf_append, first.opens, second.opens, List.append_nil], fun event member =>
    (List.mem_append.mp member).elim (first.apart event) (second.apart event)⟩

private theorem loadComponentState_aloof :
    Unclosing (fun _ => Aloof) fun env : StepEnvironment I O =>
      loadComponentState env durable streams := by
  unfold loadComponentState
  split
  · exact @unclosing_ask I O .inheritedComponentState (fun _ => Aloof) (by simp)
      fun _ => ⟨rfl, by simp⟩
  · exact unclosing_pure aloof_nil

private theorem loadProgress_aloof (hasFault : Bool) :
    Unclosing (fun _ => Aloof) fun env : StepEnvironment I O =>
      loadProgress env durable hasFault := by
  have binds : Unclosing (fun _ => Aloof) fun env : StepEnvironment I O =>
      bindFaultState env hasFault := by
    unfold bindFaultState
    split
    · refine unclosing_bind (@unclosing_ask I O .bindFaultState (fun _ => Aloof) (by simp)
        fun _ => ⟨rfl, by simp⟩) fun _ front aloof => unclosing_pure ?_
      rwa [List.append_nil]
    · exact unclosing_pure aloof_nil
  unfold loadProgress
  split
  · refine unclosing_bind binds fun bound front aloof => ?_
    split
    · refine unclosing_bind (@unclosing_ask I O .inheritedProgress (fun _ => Aloof) (by simp)
        fun _ => ⟨rfl, by simp⟩) fun answer back aloof' => ?_
      have both := aloof.append aloof'
      rw [← List.append_nil back] at both
      split <;> exact unclosing_pure both
    · refine unclosing_pure ?_
      rwa [List.append_nil]
  · exact unclosing_pure aloof_nil

/-- The loop closes no stream, and its commits are handed what the streams answered. -/
private theorem runLoop_loops (progress : InheritedStepProgress) :
    Unclosing (fun _ body => ∃ looped : Trace I O, body = looped.map .looped ∧
        Throughout (PreparedAt { components with
          streams := streams.map (·.identity), baseOrdinal := progress.readOrdinal }) looped)
      fun env => runLoop env components streams fuel rounds progress := by
  refine fun env trace => ⟨_, _, rfl, rfl, ?_, _, rfl, run_prepares _ _ fuel rounds _ _⟩
  refine List.filterMap_eq_nil_iff.mpr fun event member => ?_
  obtain ⟨inner, _, rfl⟩ := List.mem_map.mp member
  rfl

private theorem Lived.looped {streams : List StreamRegistration} {opened : List Nat}
    {front : StepTrace I O} (lived : Lived streams opened front)
    {components : Components} (named : components.streams = streams.map (·.identity))
    {looped : Trace I O} (prepared : Throughout (PreparedAt components) looped) :
    Lived streams opened (front ++ looped.map .looped) := by
  refine ⟨lived.bounded, ?_, ?_⟩
  · have unopened : opensOf (looped.map StepEvent.looped) = [] :=
      List.filterMap_eq_nil_iff.mpr fun event member => by
        obtain ⟨inner, _, rfl⟩ := List.mem_map.mp member
        rfl
    rw [opensOf_append, unopened, List.append_nil]
    exact lived.opens
  · induction looped using List.reverseRecOn with
    | nil =>
      rw [List.map_nil, List.append_nil]
      exact lived.hands
    | append_singleton looped event ih =>
      rw [List.map_append, ← List.append_assoc]
      refine (ih prepared.of_append).snoc ?_
      have here := prepared looped event [] rfl
      obtain ⟨query, answer⟩ := event
      cases query with
      | commit counts progress componentState slots =>
        exact ⟨here.named.trans named, fun index envelope found =>
          List.mem_append_right _ (List.mem_map_of_mem (here.answered index envelope found))⟩
      | _ => trivial

/-- What a step leaves behind in front of its closes. -/
private def LivesTo (streams : List StreamRegistration)
    (pending : Option (ChunkExecutionReport × List Nat × StreamRuntimeOutcome))
    (body : StepTrace I O) : Prop :=
  match pending with
  | none => ∃ opened, Lived streams opened body
  | some (_, opened, _) => Lived streams opened body

private theorem lived_opened {front body : StepTrace I O} {opened : List Nat} (aloof : Aloof front)
    (opens : OpenedBehind 0 streams opened body) : Lived streams opened (front ++ body) := by
  obtain ⟨⟨count, within, inOrder⟩, same, apart⟩ := opens
  rw [inOrder, ← List.range_eq_range', List.range_zero, List.nil_append] at same
  refine ⟨⟨count, within, same⟩, ?_, throughout_nil.append fun event member before => ?_⟩
  · rw [opensOf_append, aloof.opens, inOrder, same, List.range_eq_range']
    rfl
  · cases event with
    | around query answer => trivial
    | looped event =>
      exact ((List.mem_append.mp member).elim (aloof.apart event) (apart event)).elim

private theorem pendingStep_lives :
    Unclosing (LivesTo streams) fun env : StepEnvironment I O =>
      pendingStep env components streams durable fuel rounds := by
  have unopened : ∀ {front : StepTrace I O}, Aloof front → Lived streams [] (front ++ []) :=
    fun aloof => lived_opened streams aloof ⟨⟨0, Nat.zero_le _, rfl⟩, rfl, by simp⟩
  unfold pendingStep
  refine unclosing_bind (loadComponentState_aloof streams durable) fun loaded front aloof => ?_
  cases loaded with
  | error failure => exact unclosing_pure (unopened aloof)
  | ok inheritedState =>
    refine unclosing_bind (loadProgress_aloof durable _) fun loaded back aloof' => ?_
    have both := aloof.append aloof'
    cases loaded with
    | error outcome =>
      refine unclosing_pure ?_
      have lived := unopened both
      rw [List.append_assoc] at lived
      exact lived
    | ok progress =>
      refine unclosing_bind (openUntil_opens inheritedState 0 streams) fun opening body opens => ?_
      have lived := lived_opened streams both opens
      rw [List.append_assoc] at lived
      split
      · refine unclosing_bind (runLoop_loops components streams fuel rounds progress)
          fun report looped loops => ?_
        obtain ⟨inner, rfl, prepared⟩ := loops
        have after := lived.looped rfl prepared
        rw [← List.append_nil (_ ++ _ : StepTrace I O)] at after
        refine unclosing_pure ?_
        cases report with
        | none => exact ⟨opening.2, by simpa [List.append_assoc] using after⟩
        | some report =>
          change Lived streams opening.2 _
          simpa [List.append_assoc] using after
      · refine unclosing_pure ?_
        change Lived streams opening.2 _
        simpa [List.append_assoc] using lived

end Pending

end OxideBatch.Chunk
