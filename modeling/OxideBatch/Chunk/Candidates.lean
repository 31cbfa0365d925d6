import OxideBatch.Chunk.PhaseRule

/-! The component state of a commit: whatever happens in a run, a commit is handed the
envelopes that its registered streams answered, each under the stream's own namespace. -/

namespace OxideBatch.Chunk

open OxideBatch.Core OxideBatch.Lib Program

variable {I O : Type} {components : Components}

/-- Each stream in turn has answered its envelope, under its own namespace. -/
structure Prepared (streams : List String) (trace : Trace I O)
    (componentState : List ComponentStateEnvelope) : Prop where
  named : componentState.map (·.nameSpace) = streams
  answered : ∀ index envelope, componentState[index]? = some envelope →
    ⟨.updateStream index, .ok envelope⟩ ∈ trace

private theorem Prepared.append {streams : List String} {trace : Trace I O}
    {componentState : List ComponentStateEnvelope}
    (prepared : Prepared streams trace componentState) (events : Trace I O) :
    Prepared streams (trace ++ events) componentState :=
  ⟨prepared.named, fun index envelope found =>
    List.mem_append_left _ (prepared.answered index envelope found)⟩

/-- One more stream has answered. -/
private theorem Prepared.snoc {streams : List String} {trace : Trace I O}
    {componentState : List ComponentStateEnvelope} {envelope : ComponentStateEnvelope}
    (prepared : Prepared streams trace componentState) :
    Prepared (streams ++ [envelope.nameSpace])
      (trace ++ [⟨.updateStream streams.length, .ok envelope⟩]) (componentState ++ [envelope]) := by
  have length : componentState.length = streams.length := by
    rw [← prepared.named, List.length_map]
  refine ⟨by rw [List.map_append, prepared.named]; rfl, fun index other found => ?_⟩
  rcases Nat.lt_or_ge index componentState.length with within | beyond
  · rw [List.getElem?_append_left within] at found
    exact List.mem_append_left _ (prepared.answered index other found)
  · rw [List.getElem?_append_right beyond] at found
    obtain ⟨here, same⟩ := List.getElem?_eq_some_iff.mp found
    have last : index = streams.length := by
      simp only [List.length_singleton] at here
      omega
    subst last
    simp only [length, Nat.sub_self, List.getElem_cons_zero] at same
    subst same
    exact List.mem_append_right _ List.mem_cons_self

def PreparedAt (components : Components) (trace : Trace I O) (event : Event I O) : Prop :=
  match event.query with
  | .commit _ _ componentState _ => Prepared components.streams trace componentState
  | _ => True

/-- Every commit so far was handed what its streams had answered. -/
def AllPrepared (components : Components) (exec : Exec I O) : Prop :=
  Throughout (PreparedAt components) exec.trace

/-- Any other call leaves that as it is. -/
private theorem AllPrepared.snoc {exec : Exec I O} (all : AllPrepared components exec)
    {query : Query I O} (answer : query.Answer)
    (other : PreparedAt components exec.trace ⟨query, answer⟩) :
    AllPrepared components { exec with trace := exec.trace ++ [⟨query, answer⟩] } :=
  Throughout.snoc all other

private theorem allPrepared_calm : Calm (AllPrepared components : Exec I O → Prop) := by
  intro before after all still
  obtain ⟨events, trace, calm⟩ := still.events
  unfold AllPrepared
  rw [trace]
  refine all.append fun event member before => ?_
  have quiet := calm event member
  obtain ⟨query, answer⟩ := event
  cases query <;> first | exact trivial | cases quiet

/-- In front of a commit that is handed this component state. -/
private def Offering (components : Components) (streams : List String)
    (componentState : List ComponentStateEnvelope) (exec : Exec I O) : Prop :=
  AllPrepared components exec ∧ Prepared streams exec.trace componentState

private theorem offering_calm {streams : List String}
    {componentState : List ComponentStateEnvelope} :
    Calm (Offering components streams componentState : Exec I O → Prop) := by
  intro before after offering still
  refine ⟨allPrepared_calm _ _ offering.1 still, ?_⟩
  obtain ⟨events, trace, _⟩ := still.events
  rw [trace]
  exact offering.2.append events

/-- The program commits nothing. -/
private abbrev Prepares (components : Components) (program : ChunkM I O α) : Prop :=
  Ensures (AllPrepared components) program (fun _ => AllPrepared components)

private theorem prepares_pure (value : α) : Prepares components (pure value : ChunkM I O α) :=
  fun _ all => all

private theorem prepares_bind {program : ChunkM I O α} {next : α → ChunkM I O β}
    (first : Prepares components program) (second : ∀ value, Prepares components (next value)) :
    Prepares components (program >>= next) := Ensures.bind first second

private theorem prepares_still {program : ChunkM I O α} (still : Along Still program) :
    Prepares components program := allPrepared_calm.keeps still

/-- The phases of an attempt hand a commit what its streams answered. -/
private def candidatePhases (components : Components) : PhaseRule I O where
  kept := AllPrepared components
  leaves _ := AllPrepared components
  ready := Offering components components.streams
  step := Still
  settling := mild_still
  keeps := allPrepared_calm
  goesOn _ := Iff.rfl
  ends _ _ all := all

section Phases

variable (env : Environment I O) {components : Components}

private theorem prepares_unit {program : ChunkM I O (Option Verdict)}
    (prepares : Prepares components program) :
    Ensures (AllPrepared components) program (candidatePhases components).unit :=
  prepares.weaken (fun _ all => all) fun verdict _ all => by cases verdict <;> exact all

private theorem prepares_skipping (key : Digest) (change : ChunkBuffer I O → ChunkBuffer I O)
    (value : α) : Prepares components (do
      resolveKey env components key
      modifyBuffer change
      pure value) :=
  prepares_bind (prepares_still (mild_still.resolveKey env components key)) fun _ _ all => all

private theorem prepares_readFault (sequence : Nat) (key : Digest) (entered : Nat)
    (invoked : Invoked (ReadOutcome I) ReaderError) :
    Prepares components (readFault env components sequence key entered invoked) := by
  refine prepares_bind (prepares_still (still_classifyFault env components _ _ _ _ _ _ _))
    fun answer => ?_
  split
  · exact prepares_pure _
  · split
    · exact prepares_pure _
    · exact prepares_skipping env key _ _
    · exact prepares_pure _
    · exact prepares_pure _
    · exact prepares_pure _

private theorem prepares_processFault (sequence index : Nat) (item : I) (key : Digest)
    (entered : Nat) (invoked : Invoked (ProcessOutcome O) ProcessorError) :
    Prepares components (processFault env components sequence index item key entered invoked) := by
  refine prepares_bind (prepares_still (still_classifyFault env components _ _ _ _ _ _ _))
    fun answer => ?_
  split
  · exact prepares_pure _
  · split
    · exact prepares_pure _
    · exact prepares_skipping env key _ _
    · exact prepares_pure _
    · exact prepares_pure _
    · exact prepares_pure _

private theorem readPhase_prepares (sequence fuel : Nat) :
    Ensures (AllPrepared components) (readPhase env components sequence fuel)
      (candidatePhases components).unit := by
  refine (candidatePhases components).readPhase env ?_ fuel
  refine (candidatePhases components).readOne env (fun _ => AllPrepared components)
    (fun exec call answer all => ?_) (fun _ _ _ all => all)
    fun key entered invoked => prepares_unit (prepares_readFault env _ _ _ _)
  have after := @AllPrepared.snoc _ _ _ _ all (.read call) answer trivial
  cases answer <;> exact after

private theorem processPhase_prepares (sequence : Nat) :
    Ensures (AllPrepared components) (processPhase env components sequence)
      (fun _ (exec : Exec I O) => AllPrepared components exec) := by
  refine (candidatePhases components).processPhase env fun index slot outputs => ?_
  refine Ensures.weaken ?_ (fun _ holds => holds.1) fun _ _ unit => unit
  exact (candidatePhases components).processOne env (fun _ all => all.snoc _ trivial)
    fun key entered invoked => prepares_unit (prepares_processFault env _ _ _ _ _ _)

private theorem updateStreams_hands {passed streams : List String}
    (whole : passed ++ streams = components.streams) (envelopes : List ComponentStateEnvelope) :
    Ensures (Offering components passed envelopes)
      (updateStreams env passed.length streams envelopes) (candidatePhases components).written := by
  induction streams generalizing passed envelopes with
  | nil =>
    rw [List.append_nil] at whole
    subst whole
    exact Ensures.pure fun _ offering => offering
  | cons identity streams ih =>
    have asking : Ensures (Offering components passed envelopes)
        (ask env (.updateStream passed.length))
        (fun answer exec => AllPrepared components exec ∧ ∀ envelope, answer = .ok envelope →
          Prepared (passed ++ [envelope.nameSpace]) exec.trace (envelopes ++ [envelope])) := by
      rintro exec ⟨all, prepared⟩
      refine ⟨all.snoc _ trivial, fun envelope answered => ?_⟩
      have here := @Prepared.snoc I O passed exec.trace envelopes envelope prepared
      rw [← answered] at here
      exact here
    refine Ensures.bind asking fun answer => ?_
    split
    · rename_i envelope
      split
      · rename_i same
        have rest := @ih (passed ++ [envelope.nameSpace])
          (by rw [same, List.append_assoc]; exact whole) (envelopes ++ [envelope])
        rw [List.length_append, List.length_singleton] at rest
        exact rest.weaken (fun exec holds => ⟨holds.1, holds.2 envelope rfl⟩)
          fun _ _ handed => handed
      · exact Ensures.pure fun _ holds => holds.1
    · exact Ensures.pure fun _ holds => holds.1

/-- A write that failed does not lead to a commit. -/
private theorem writeFault_refuses (sequence : Nat) (outputs : AttemptOutputs O) (key : Digest)
    (entered : Nat) (invoked : Invoked WriteOutcome WriterError) :
    Ensures (AllPrepared components)
      (writeFault env components sequence outputs key entered invoked)
      (fun verdict (exec : Exec I O) => (candidatePhases components).written (verdict, []) exec) := by
  refine Ensures.bind (prepares_still (still_classifyFault env components _ _ _ _ _ _ _))
    fun answer => ?_
  split
  · exact Ensures.pure fun _ all => all
  · split
    · exact Ensures.pure fun _ all => all
    · split
      · exact Ensures.pure fun _ all => all
      · exact Ensures.bind (prepares_still (mild_still.resolveKey env components key))
          fun _ _ all => all
    · exact Ensures.pure fun _ all => all
    · exact Ensures.pure fun _ all => all
    · exact Ensures.pure fun _ all => all

private theorem attemptBody_hands (began : Bool) (sequence fuel : Nat) :
    Ensures (AllPrepared components) (attemptBody env components began sequence fuel)
      (fun result (exec : Exec I O) => (candidatePhases components).body result exec) := by
  refine (candidatePhases components).attemptBody env (readPhase_prepares env sequence)
    (processPhase_prepares env sequence) (fun outputs => ?_) began fuel
  refine (candidatePhases components).writePhase env (fun _ all => all.snoc _ trivial) ?_
    fun key entered invoked => writeFault_refuses env _ _ _ _ _
  exact (@updateStreams_hands I O env components [] components.streams rfl []).weaken
    (fun _ all => ⟨all, rfl, fun index envelope found => by cases found⟩) fun _ _ handed => handed

private theorem commitAttempt_prepared (outputs : AttemptOutputs O)
    (componentState : List ComponentStateEnvelope) :
    Ensures (Offering components components.streams componentState)
      (commitAttempt env components outputs componentState)
      (fun _ => AllPrepared components) := by
  have rolling : ∀ outcome, Prepares components (rollBackTo env outcome) := fun outcome =>
    prepares_bind (prepares_still (still_rollback env)) fun done => by
      split <;> exact prepares_pure _
  have rolls : ∀ outcome, Ensures (Offering components components.streams componentState)
      (rollBackTo env outcome) (fun _ => AllPrepared components) := fun outcome =>
    (rolling outcome).weaken (fun _ offering => offering.1) fun _ _ all => all
  refine Ensures.bind (offering_calm.keeps mild_still.getBuffer) fun buffer => ?_
  refine Ensures.bind (offering_calm.keeps (mild_still.skipCallbacks env _ _)) fun failed => ?_
  split
  · exact rolls _
  · split
    · exact rolls _
    · split
      · exact rolls _
      · rename_i counts _ _ accepted _
        have committing : Ensures (Offering components components.streams componentState)
            (ask env (.commit counts accepted componentState buffer.slots))
            (fun _ => AllPrepared components) :=
          fun _ offering => offering.1.snoc _ offering.2
        refine Ensures.bind committing fun answer => ?_
        split
        · refine prepares_bind (prepares_still mild_still.getState) fun state => ?_
          split
          · exact prepares_pure _
          · refine prepares_bind (fun _ all => all) fun _ => ?_
            split
            · exact prepares_pure _
            · exact prepares_bind (fun _ all => all.snoc _ trivial) fun _ => prepares_pure _
        · exact prepares_pure _
        · exact rolling _

/-- The component state of the commits as an invariant of the loop. -/
def candidateRule : LoopRule env components where
  going := AllPrepared components
  begun := AllPrepared components
  ready _ componentState := Offering components components.streams componentState
  retrying _ := AllPrepared components
  closed := AllPrepared components
  ended := AllPrepared components
  goingCalm := allPrepared_calm
  begunCalm := allPrepared_calm
  retryingPauses _ := allPrepared_calm.pauses
  closedCalm := allPrepared_calm
  endedCalm := allPrepared_calm
  goingEnds _ all := all
  begunEnds _ all := all
  retryingEnds _ _ all := all
  closedEnds _ all := all
  begins _ _ all := all.snoc _ trivial
  body began sequence fuel := (attemptBody_hands env began sequence fuel).weaken
    (fun _ all => all) fun result exec handed => by
      match result with
      | none => exact handed
      | some (verdict, _, _) =>
        cases verdict with
        | commit => exact handed
        | retry request => exact handed
        | replay => exact handed
        | terminal outcome => exact handed
  reserves _ _ all := all.snoc _ trivial
  refuses _ _ _ all := all.snoc _ trivial
  commits outputs componentState := (commitAttempt_prepared env outputs componentState).weaken
    (fun _ holds => holds) fun result _ all => by cases result <;> exact all
  renews _ _ _ all := all

end Phases

/-- In every run, however far it gets, a commit is handed the envelope of each registered
stream, as the stream answered it and under the stream's namespace. -/
theorem run_prepares (env : Environment I O) (components : Components) (fuel rounds : Nat)
    (checkpointDigest : Digest) (state : ExecutionState) :
    Throughout (PreparedAt components)
      (run env components fuel rounds checkpointDigest state).2.trace :=
  (candidateRule env).runChunkLoop_ends fuel 0 rounds _ throughout_nil

end OxideBatch.Chunk
