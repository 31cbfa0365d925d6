import OxideBatch.Chunk.Quiet

/-! The invariant rule of the chunk loop: what the phases of an attempt and its commit
have to keep for a property to hold however far a run gets. -/

namespace OxideBatch.Chunk

open OxideBatch.Core Program

variable {I O : Type}

theorem getBuffer_ensures {before : Exec I O → Prop} :
    Ensures before getBuffer (fun buffer exec => buffer = exec.buffer ∧ before exec) :=
  fun _ holds => ⟨rfl, holds⟩

theorem modifyBuffer_ensures {change : ChunkBuffer I O → ChunkBuffer I O}
    {before after : Exec I O → Prop}
    (step : ∀ exec, before exec → after { exec with buffer := change exec.buffer }) :
    Ensures before (modifyBuffer change) (fun _ => after) :=
  step

/-- Calm programs keep the property. -/
def Calm (property : Exec I O → Prop) : Prop :=
  ∀ before after, property before → Still before after → property after

/-- The calls between a verdict that asks for a retry and its reservation. -/
def Query.isPause : Query I O → Bool
  | .rollback | .stop => true
  | _ => false

/-- Those calls keep the property. -/
def Pauses (property : Exec I O → Prop) : Prop :=
  ∀ exec (query : Query I O) (answer : query.Answer), query.isPause = true → property exec →
    property { exec with trace := exec.trace ++ [⟨query, answer⟩] }

theorem Calm.pauses {property : Exec I O → Prop} (calm : Calm property) : Pauses property := by
  intro exec query answer pause holds
  have quiet : query.isCalm = true := by
    cases query <;> first | rfl | cases pause
  exact calm _ _ holds ⟨⟨[⟨query, answer⟩], rfl, List.forall_mem_singleton.mpr quiet⟩, rfl, rfl, rfl⟩

theorem Pauses.attemptStop {property : Exec I O → Prop} (pauses : Pauses property)
    (env : Environment I O) (components : Components) :
    Ensures property (attemptStop env components) (fun _ => property) := by
  unfold Chunk.attemptStop
  split
  · exact Ensures.pure fun _ holds => holds
  · exact fun exec holds => pauses exec .stop _ rfl holds

theorem Calm.keeps {property : Exec I O → Prop} (calm : Calm property) {program : ChunkM I O α}
    (still : Along Still program) : Ensures property program (fun _ => property) :=
  still.ensures fun holds moved => calm _ _ holds moved

/-- What the body of an attempt leaves with its verdict, by the stations it leads to. -/
def Verdict.LeadsTo (going ended : Exec I O → Prop) (ready : AttemptOutputs O → Exec I O → Prop)
    (retrying : RetryRequest → Exec I O → Prop) (verdict : Verdict) (outputs : AttemptOutputs O)
    (exec : Exec I O) : Prop :=
  match verdict with
  | .commit => ready outputs exec
  | .retry request => retrying request exec
  | .replay => going exec
  | .terminal _ => ended exec

/-- What an attempt leaves with its result, by the stations it leads to. -/
def AttemptResult.LeadsTo (going closed ended : Exec I O → Prop) (result : AttemptResult)
    (exec : Exec I O) : Prop :=
  match result with
  | .committed _ _ => closed exec
  | .replay => going exec
  | _ => ended exec

theorem rollBackTo_leads (env : Environment I O) {going closed ended : Exec I O → Prop}
    (calm : Calm ended) (outcome : ChunkExecutionOutcome) :
    Ensures ended (rollBackTo env outcome) (AttemptResult.LeadsTo going closed ended) := by
  refine Ensures.bind (calm.keeps (still_rollback env)) fun rolledBack => ?_
  split
  · exact Ensures.pure fun _ holds => holds
  · exact Ensures.pure fun _ holds => holds

/-- The stations of the loop: `going` between attempts, `begun` inside one, `ready` in front
of its commit and the component state handed over, `retrying` in front of a reservation, `closed`
behind a commit, and `ended` behind everything. -/
structure LoopRule (env : Environment I O) (components : Components) where
  going : Exec I O → Prop
  begun : Exec I O → Prop
  ready : AttemptOutputs O → List ComponentStateEnvelope → Exec I O → Prop
  retrying : RetryRequest → Exec I O → Prop
  closed : Exec I O → Prop
  ended : Exec I O → Prop
  goingCalm : Calm going
  begunCalm : Calm begun
  retryingPauses : ∀ request, Pauses (retrying request)
  closedCalm : Calm closed
  endedCalm : Calm ended
  goingEnds : ∀ exec, going exec → ended exec
  begunEnds : ∀ exec, begun exec → ended exec
  retryingEnds : ∀ request exec, retrying request exec → ended exec
  closedEnds : ∀ exec, closed exec → ended exec
  begins : ∀ exec (answer : Except TransactionError Unit), going exec →
    begun { exec with trace := exec.trace ++ [⟨.begin, answer⟩] }
  body : ∀ began sequence fuel, Ensures begun (attemptBody env components began sequence fuel)
    (fun result exec =>
      match result with
      | none => ended exec
      | some (verdict, outputs, componentState) =>
        verdict.LeadsTo going ended (ready · componentState) retrying outputs exec)
  reserves : ∀ request exec, retrying request exec →
    going { exec with trace := exec.trace ++
      [⟨.reserve ⟨request.key, request.phase, request.fault.category, request.ordinal⟩, .ok ()⟩] }
  refuses : ∀ request exec error, retrying request exec →
    ended { exec with trace := exec.trace ++
      [⟨.reserve ⟨request.key, request.phase, request.fault.category, request.ordinal⟩,
        .error error⟩] }
  commits : ∀ outputs componentState, Ensures (ready outputs componentState)
    (commitAttempt env components outputs componentState)
    (AttemptResult.LeadsTo going closed ended)
  renews : ∀ exec ordinal digest, closed exec →
    going { exec with buffer := ChunkBuffer.new I O ordinal digest }

namespace LoopRule

variable {env : Environment I O} {components : Components} (rule : LoopRule env components)

/-- What an attempt leaves with its result. -/
def Leaves : AttemptResult → Exec I O → Prop :=
  AttemptResult.LeadsTo rule.going rule.closed rule.ended

/-- The loop goes on or ends. -/
def Goes (report : Option α) (exec : Exec I O) : Prop :=
  match report with
  | none => rule.going exec
  | some _ => rule.ended exec

/-- A calm program that ends the step. -/
theorem ends {program : ChunkM I O β} (still : Along Still program) (report : β → α) :
    Ensures rule.ended (program >>= fun value => pure (some (report value))) rule.Goes := by
  refine Ensures.bind (rule.endedCalm.keeps still) fun value => ?_
  exact Ensures.pure fun _ ended => ended

/-- A calm program that may go on. -/
theorem goes {program : ChunkM I O (Option α)} (still : Along Still program) :
    Ensures rule.going program rule.Goes := by
  intro exec going
  have kept := rule.goingCalm _ _ going (still exec)
  cases report : (program exec).1 with
  | none => exact kept
  | some value => exact rule.goingEnds _ kept

private theorem backOff_leaves (sequence : Nat) (request : RetryRequest) :
    Ensures rule.going (backOff env components sequence request) rule.Leaves := by
  refine Ensures.bind (rule.goingCalm.keeps (still_emit env _)) fun _ => ?_
  refine Ensures.bind (rule.goingCalm.keeps (still_ask env rfl)) fun slept => ?_
  split
  · refine Ensures.bind (rule.goingCalm.keeps (still_emit env _)) fun _ => ?_
    exact Ensures.pure fun exec going => rule.goingEnds exec going
  · refine Ensures.bind (rule.goingCalm.keeps (mild_still.attemptStop env components)) fun stop => ?_
    split
    · exact Ensures.pure fun exec going => rule.goingEnds exec going
    · exact Ensures.pure fun _ going => going

private theorem enterRetry_leaves (sequence : Nat) (request : RetryRequest) :
    Ensures rule.going (enterRetry env components sequence request) rule.Leaves := by
  refine Ensures.bind (rule.goingCalm.keeps (still_modifyState _)) fun _ => ?_
  refine Ensures.bind (rule.goingCalm.keeps (still_emit env _)) fun _ => ?_
  refine Ensures.bind (rule.goingCalm.keeps (still_emit env _)) fun _ => ?_
  refine Ensures.bind (rule.goingCalm.keeps (mild_still.beforePass env _)) fun before => ?_
  split
  · exact Ensures.pure fun exec going => rule.goingEnds exec going
  · refine Ensures.bind (rule.goingCalm.keeps (still_modifyBuffer fun _ => ⟨rfl, rfl, rfl⟩))
      fun _ => ?_
    refine Ensures.bind (rule.goingCalm.keeps (mild_still.attemptStop env components)) fun stop => ?_
    split
    · exact Ensures.pure fun exec going => rule.goingEnds exec going
    · exact rule.backOff_leaves sequence request

/-- What the answer to a reservation leads to. -/
def Reserved (answer : Except FaultStateError Unit) (exec : Exec I O) : Prop :=
  match answer with
  | .ok _ => rule.going exec
  | .error _ => rule.ended exec

theorem reserving (request : RetryRequest) :
    Ensures (rule.retrying request)
      (ask env (.reserve ⟨request.key, request.phase, request.fault.category, request.ordinal⟩))
      rule.Reserved := by
  intro exec retrying
  have answered : ∀ answer : Except FaultStateError Unit, rule.Reserved answer
      { exec with trace := exec.trace ++
        [⟨.reserve ⟨request.key, request.phase, request.fault.category, request.ordinal⟩,
          answer⟩] } := by
    intro answer
    cases answer with
    | ok _ => exact rule.reserves request exec retrying
    | error error => exact rule.refuses request exec error retrying
  exact answered _

private theorem scheduleRetry_leaves (sequence : Nat) (request : RetryRequest) :
    Ensures (rule.retrying request) (scheduleRetry env components sequence request)
      rule.Leaves := by
  have rollingBack : Ensures (rule.retrying request) (rollback env)
      (fun _ => rule.retrying request) :=
    fun exec retrying => rule.retryingPauses request exec .rollback _ rfl retrying
  unfold scheduleRetry
  split
  · exact Ensures.pure fun exec retrying => rule.retryingEnds request exec retrying
  · refine Ensures.bind rollingBack fun rolledBack => ?_
    split
    · refine Ensures.bind ((rule.retryingPauses request).attemptStop env components) fun stop => ?_
      split
      · exact Ensures.pure fun exec retrying => rule.retryingEnds request exec retrying
      · refine Ensures.bind (rule.reserving request) fun reserved => ?_
        split
        · exact Ensures.pure fun _ ended => ended
        · exact Ensures.pure fun _ ended => ended
        · exact rule.enterRetry_leaves sequence request
    · exact Ensures.pure fun exec retrying => rule.retryingEnds request exec retrying

private theorem concludeAttempt_leaves (sequence : Nat) (verdict : Verdict)
    (outputs : AttemptOutputs O)
    (componentState : List ComponentStateEnvelope) :
    Ensures (verdict.LeadsTo rule.going rule.ended (rule.ready · componentState) rule.retrying
        outputs)
      (concludeAttempt env components sequence verdict outputs componentState) rule.Leaves := by
  cases verdict with
  | commit => exact rule.commits outputs componentState
  | retry request => exact rule.scheduleRetry_leaves sequence request
  | replay =>
    refine Ensures.bind (rule.goingCalm.keeps (still_rollback env)) fun rolledBack => ?_
    split
    · exact Ensures.pure fun _ going => going
    · exact Ensures.pure fun exec going => rule.goingEnds exec going
  | terminal outcome =>
    cases outcome with
    | unknown => exact Ensures.pure fun _ ended => ended
    | completed => exact rollBackTo_leads env rule.endedCalm _
    | stopped => exact rollBackTo_leads env rule.endedCalm _
    | failed failure => exact rollBackTo_leads env rule.endedCalm _

private theorem runAttempt_leaves (sequence fuel : Nat) :
    Ensures rule.begun (runAttempt env components sequence fuel)
      (fun result exec =>
        match result.1 with
        | none => rule.ended exec
        | some result => rule.Leaves result exec) := by
  refine Ensures.bind (rule.begunCalm.keeps (still_beginPolicy env components)) fun began => ?_
  refine Ensures.bind (rule.body began sequence fuel) fun result => ?_
  cases result with
  | none => exact Ensures.pure fun _ ended => ended
  | some result =>
    obtain ⟨verdict, outputs, componentState⟩ := result
    refine Ensures.bind (rule.concludeAttempt_leaves sequence verdict outputs componentState)
      fun concluded => ?_
    exact Ensures.pure fun _ leaves => leaves

private theorem afterCommitted_goes (began : Bool) (sequence : Nat) (counts : ChunkCounts)
    (receipt : CommitReceipt) :
    Ensures rule.closed (afterCommitted env components began sequence counts receipt)
      rule.Goes := by
  have overflow : Ensures rule.closed
      (finishFailedAttempt env components began sequence .committed (.failed .count) >>=
        fun report => pure (some report)) rule.Goes :=
    (rule.ends (still_finishFailedAttempt env components _ _ _ _) id).weaken rule.closedEnds
      fun _ _ goes => goes
  refine Ensures.bind (rule.closedCalm.keeps mild_still.getState) fun state => ?_
  split
  · refine Ensures.bind (rule.closedCalm.keeps (still_modifyState _)) fun _ => ?_
    refine Ensures.bind (rule.closedCalm.keeps (still_emit env _)) fun _ => ?_
    refine Ensures.bind (rule.closedCalm.keeps mild_still.getBuffer) fun buffer => ?_
    refine Ensures.bind (rule.closedCalm.keeps (mild_still.emitCommittedSkips env _ _)) fun _ => ?_
    split
    · exact overflow
    · refine Ensures.bind (modifyBuffer_ensures fun exec closed => rule.renews exec _ _ closed)
        fun _ => ?_
      refine Ensures.bind (rule.goingCalm.keeps (mild_still.completionOutcome env _ _ _))
        fun terminal => ?_
      refine Ensures.bind (rule.goes (still_closeAttempt env components _ _ _ _)) fun closed => ?_
      split
      · exact Ensures.pure fun _ ended => ended
      · split
        · exact (rule.ends (mild_still.reportWith _ _) id).weaken rule.goingEnds fun _ _ goes => goes
        · exact Ensures.pure fun _ going => going
  · exact overflow

private theorem abandonAttempt_goes (began : Bool) (sequence : Nat)
    (outcome : ChunkExecutionOutcome) :
    Ensures rule.ended (abandonAttempt env components began sequence outcome) rule.Goes := by
  refine Ensures.bind (rule.endedCalm.keeps (still_modifyState _)) fun _ => ?_
  refine Ensures.bind (rule.endedCalm.keeps mild_still.getState) fun state => ?_
  split
  · refine Ensures.bind (rule.endedCalm.keeps (mild_still.reportWith _ _)) fun report => ?_
    exact rule.ends (still_finishPolicy env began _) fun _ => report
  · refine Ensures.bind (rule.endedCalm.keeps (still_modifyState _)) fun _ => ?_
    refine Ensures.bind (rule.endedCalm.keeps (still_emit env _)) fun _ => ?_
    exact rule.ends (still_finishFailedAttempt env components _ _ _ _) id

private theorem afterAttempt_goes (began : Bool) (sequence : Nat) (result : AttemptResult) :
    Ensures (rule.Leaves result) (afterAttempt env components began sequence result) rule.Goes := by
  cases result with
  | committed counts receipt => exact rule.afterCommitted_goes began sequence counts receipt
  | replay => exact rule.goes (still_recordRolledBackAttempt env components _ _)
  | rolledBack outcome =>
    cases outcome with
    | completed =>
      refine Ensures.bind (rule.endedCalm.keeps (still_emit env _)) fun _ => ?_
      refine Ensures.bind (rule.endedCalm.keeps (still_closeAttempt env components _ _ _ _))
        fun closed => ?_
      split
      · exact Ensures.pure fun _ ended => ended
      · exact rule.ends (mild_still.reportWith _ _) id
    | stopped => exact rule.abandonAttempt_goes began sequence .stopped
    | failed failure => exact rule.abandonAttempt_goes began sequence (.failed failure)
    | unknown => exact rule.abandonAttempt_goes began sequence .unknown
  | rollbackFailed original =>
    refine Ensures.bind (rule.endedCalm.keeps (still_finishPolicy env began _)) fun panicked => ?_
    split
    · exact rule.ends (mild_still.reportWith _ _) id
    · exact rule.ends (mild_still.reportWith _ _) id
  | unknown =>
    refine Ensures.bind (rule.endedCalm.keeps (still_emit env _)) fun _ => ?_
    exact rule.ends (still_finishFailedAttempt env components _ _ _ _) id

private theorem runChunk_goes (sequence fuel : Nat) :
    Ensures rule.going (runChunk env components sequence fuel) rule.Goes := by
  have beginning : Ensures rule.going (ask env .begin) (fun _ => rule.begun) :=
    fun exec going => rule.begins exec _ going
  have failing : ∀ attemptOutcome outcome, Ensures rule.begun
      (finishFailedAttempt env components false sequence attemptOutcome outcome >>=
        fun report => pure (some (some report))) rule.Goes :=
    fun attemptOutcome outcome =>
      (rule.ends (still_finishFailedAttempt env components _ _ _ _) some).weaken rule.begunEnds
        fun _ _ goes => goes
  refine Ensures.bind beginning fun begun => ?_
  split
  · exact failing _ _
  · exact failing _ _
  · refine Ensures.bind (rule.begunCalm.keeps (still_emit env _)) fun _ => ?_
    refine Ensures.bind (rule.runAttempt_leaves sequence fuel) fun attempt => ?_
    obtain ⟨result, began⟩ := attempt
    cases result with
    | none => exact Ensures.pure fun _ ended => ended
    | some result =>
      refine Ensures.bind (rule.afterAttempt_goes began sequence result) fun report => ?_
      split
      · exact Ensures.pure fun _ ended => ended
      · exact Ensures.pure fun _ going => going

/-- However far the loop gets, it ends where every station ends. -/
theorem runChunkLoop_ends (fuel sequence rounds : Nat) :
    Ensures rule.going (runChunkLoop env components fuel sequence rounds)
      (fun _ => rule.ended) := by
  have reporting : ∀ outcome, Ensures rule.going
      ((reportWith outcome none : ChunkM I O _) >>= fun report => pure (some report))
      (fun _ => rule.ended) := by
    intro outcome exec going
    exact rule.goingEnds _ (rule.goingCalm _ _ going (mild_still.reportWith outcome none exec))
  induction rounds generalizing sequence with
  | zero => exact Ensures.pure rule.goingEnds
  | succ rounds ih =>
    refine Ensures.bind (rule.goingCalm.keeps (still_stopRequested env)) fun stop => ?_
    split
    · exact reporting _
    · split
      · exact reporting _
      · refine Ensures.bind (rule.goingCalm.keeps (mild_still.runBeforeListeners env _ _))
          fun failed => ?_
        split
        · refine Ensures.bind (rule.goingCalm.keeps (still_modifyState _)) fun _ => ?_
          exact reporting _
        · refine Ensures.bind (rule.goingCalm.keeps (still_stopRequested env)) fun stop => ?_
          split
          · exact reporting _
          · refine Ensures.bind (rule.runChunk_goes _ fuel) fun report => ?_
            split
            · exact Ensures.pure fun _ ended => ended
            · exact ih _

end LoopRule

end OxideBatch.Chunk
