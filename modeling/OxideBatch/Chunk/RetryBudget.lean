import OxideBatch.Chunk.ReinvocationLoop
import OxideBatch.Chunk.ReadAccount

/-! The retry budget: any number of runs over one store, in any interleaving of their
calls. -/

namespace OxideBatch.Chunk

open OxideBatch.Core OxideBatch.Lib

variable {I O State : Type}

/-- One run of the chunk loop under a policy. -/
structure ChunkRun where
  Input : Type
  Output : Type
  env : Environment Input Output
  components : Components
  policy : FaultPolicy
  deliveryMode : ChunkDeliveryMode
  fuel : Nat
  rounds : Nat
  checkpointDigest : Digest
  state : ExecutionState

def ChunkRun.trace (chunkRun : ChunkRun) : Trace chunkRun.Input chunkRun.Output :=
  (run chunkRun.env (chunkRun.components.governed chunkRun.policy chunkRun.deliveryMode)
    chunkRun.fuel chunkRun.rounds chunkRun.checkpointDigest chunkRun.state).2.trace

theorem ChunkRun.kept (chunkRun : ChunkRun) : Kept chunkRun.policy chunkRun.trace :=
  run_kept _ _ _ _ _ _ _ _

/-- What a run has called again so far is paid for by its own grants. -/
def ChunkRun.Repaid (chunkRun : ChunkRun)
    (reached : Trace chunkRun.Input chunkRun.Output) : Prop :=
  Chunk.Repaid (chunkRun.components.governed chunkRun.policy chunkRun.deliveryMode) reached

theorem ChunkRun.repaid (chunkRun : ChunkRun)
    {reached : Trace chunkRun.Input chunkRun.Output} (part : reached <+: chunkRun.trace) :
    chunkRun.Repaid reached :=
  (run_repaid chunkRun.env rfl _ _ _ _).before part

/-- The calls of one run in a history of calls under the numbers of their runs. -/
def callsOf (index : Nat) (history : List (Nat × StoreCall)) : List StoreCall :=
  history.filterMap fun entry => if entry.1 = index then some entry.2 else none

private theorem callsOf_sublist (index : Nat) (history : List (Nat × StoreCall)) :
    (callsOf index history).Sublist (history.map Prod.snd) := by
  induction history with
  | nil => exact .slnil
  | cons entry history ih =>
    by_cases own : entry.1 = index
    · have first : callsOf index (entry :: history) = entry.2 :: callsOf index history :=
        List.filterMap_cons_some (if_pos own)
      rw [first]
      exact ih.cons_cons entry.2
    · have skipped : callsOf index (entry :: history) = callsOf index history :=
        List.filterMap_cons_none (if_neg own)
      rw [skipped]
      exact ih.cons entry.2

/-- A part of the calls is granted no key more often. -/
private theorem granted_length_mono {part calls : List StoreCall} (sublist : part.Sublist calls)
    (key : Digest) : (granted key part).length ≤ (granted key calls).length :=
  (sublist.filterMap _).length_le

namespace RetryStore

variable (store : RetryStore State)

def serveAll (start : State) (calls : List StoreCall) : Option State := calls.foldlM store.serve start

/-- A history of calls on one store, up to some moment of its runs: the store serves them
one after another, and each run has made its own in its own order. -/
structure Interleaved (runs : List ChunkRun) (start : State) (history : List (Nat × StoreCall))
    (finish : State) : Prop where
  served : store.serveAll start (history.map Prod.snd) = some finish
  owned : ∀ entry ∈ history, entry.1 < runs.length
  ordered : ∀ index chunkRun, runs[index]? = some chunkRun →
    callsOf index history <+: storeCalls chunkRun.trace

/-- What a history keeps of the retry budget. -/
structure Budget (runs : List ChunkRun) (start : State) (history : List (Nat × StoreCall)) :
    Prop where
  /-- Between two clearings the ordinals of a key follow the one the store holds. -/
  consecutive : ∀ before between after reached key, history = before ++ between ++ after →
    store.serveAll start (before.map Prod.snd) = some reached →
    (∀ entry ∈ between, store.clears entry.2 = false) →
    granted key (between.map Prod.snd) =
      List.range' (store.held reached key + 1) (granted key (between.map Prod.snd)).length
  /-- A clearing drops a key or leaves its ordinal. -/
  restarts : ∀ before entry after reached next, history = before ++ entry :: after →
    store.serveAll start (before.map Prod.snd) = some reached →
    store.serve reached entry.2 = some next → store.clears entry.2 = true →
    ∀ key, store.held next key = store.held reached key ∨ store.held next key = 0
  /-- No ordinal is granted above the limit of the run that asked. -/
  within : ∀ index reservation, (index, .reserve reservation (.ok ())) ∈ history →
    ∃ chunkRun, runs[index]? = some chunkRun ∧ 0 < reservation.ordinal ∧
      reservation.ordinal ≤ chunkRun.policy.retryLimit
  /-- Between two clearings no unit of work is retried more often than a limit. -/
  bounded : ∀ before between after limit key, history = before ++ between ++ after →
    (∀ entry ∈ between, store.clears entry.2 = false) →
    (∀ chunkRun ∈ runs, chunkRun.policy.retryLimit ≤ limit) →
    (granted key (between.map Prod.snd)).length ≤ limit
  /-- A refused reservation changes nothing. -/
  refused : ∀ before index reservation error after reached next,
    history = before ++ (index, .reserve reservation (.error error)) :: after →
    store.serveAll start (before.map Prod.snd) = some reached →
    store.serve reached (.reserve reservation (.error error)) = some next → next = reached
  /-- A run with the store to itself is granted no key more often than its limit in one
  checkpoint generation. -/
  alone : ∀ chunkRun before generation, runs = [chunkRun] →
    before ++ generation <+: chunkRun.trace →
    history.map Prod.snd = storeCalls (before ++ generation) →
    (∀ event ∈ generation, event.endsGeneration = false) →
    ∀ key, (granted key (storeCalls generation)).length ≤ chunkRun.policy.retryLimit
  /-- However far a run got, it called no component again for a unit of work more often than
  the store granted it a retry for the key of the unit, in its checkpoint generation. -/
  repaid : ∀ chunkRun ∈ runs, ∀ reached, reached <+: chunkRun.trace → chunkRun.Repaid reached
  /-- A run whose checkpoint generation lies between two clearings calls no component again
  for a unit of work more often than a limit. -/
  reinvoked : ∀ index chunkRun reached before between after limit,
    runs[index]? = some chunkRun → reached <+: chunkRun.trace →
    history = before ++ between ++ after →
    (∀ entry ∈ between, store.clears entry.2 = false) →
    (storeCalls (generationOf reached)).Sublist (callsOf index between) →
    (∀ chunkRun ∈ runs, chunkRun.policy.retryLimit ≤ limit) →
    ∀ unit, retries unit reached ≤ limit
  /-- A run with the store to itself calls no component again for a unit of work more often
  than its limit in one checkpoint generation. -/
  reinvokedAlone : ∀ chunkRun reached, runs = [chunkRun] → reached <+: chunkRun.trace →
    history.map Prod.snd = storeCalls reached →
    ∀ unit, retries unit reached ≤ chunkRun.policy.retryLimit

variable {store} {start finish : State}

private theorem serveAll_append {before after : List StoreCall}
    (served : store.serveAll start (before ++ after) = some finish) :
    ∃ reached, store.serveAll start before = some reached ∧
      store.serveAll reached after = some finish := by
  unfold serveAll at served
  rw [List.foldlM_append] at served
  exact Option.bind_eq_some_iff.mp served

private theorem serveAll_cons {call : StoreCall} {calls : List StoreCall}
    (served : store.serveAll start (call :: calls) = some finish) :
    ∃ next, store.serve start call = some next ∧ store.serveAll next calls = some finish := by
  unfold serveAll at served
  rw [List.foldlM_cons] at served
  exact Option.bind_eq_some_iff.mp served

private theorem ticketsOf_step (key : Digest) (calls : List StoreCall) :
    ticketsOf key (calls.map store.step) = granted key calls := by
  unfold ticketsOf granted
  rw [List.filterMap_map]
  congr 1
  funext call
  change (store.step call).ticketOf key = call.grantOf key
  have idle : ∀ {call : StoreCall}, store.step call =
      (if store.clears call then .cleared else .idle) → (store.step call).ticketOf key = none := by
    intro call plain
    rw [plain]
    split
    · rfl
    · rfl
  cases call with
  | reserve reservation answer =>
    cases answer with
    | ok _ => rfl
    | error error => exact idle rfl
  | _ => exact idle rfl

private theorem isCleared_step {call : StoreCall} (spares : store.clears call = false) :
    (store.step call).isCleared = false := by
  unfold step
  split
  · rfl
  · rw [spares]
    rfl

theorem Lawful.moved (lawful : store.Lawful) {calls : List StoreCall}
    (served : store.serveAll start calls = some finish) :
    Moved (store.held start) (calls.map store.step) (store.held finish) := by
  induction calls generalizing start with
  | nil =>
    cases served
    exact .nil _
  | cons call calls ih =>
    obtain ⟨next, first, rest⟩ := serveAll_cons served
    exact .cons (lawful.moves first) (ih rest)

section Uncleared

variable {calls : List StoreCall}

private theorem steps_uncleared (uncleared : ∀ call ∈ calls, store.clears call = false) :
    ∀ step ∈ calls.map store.step, step.isCleared = false := by
  intro step member
  obtain ⟨call, present, rfl⟩ := List.mem_map.mp member
  exact isCleared_step (uncleared call present)

/-- Without a clearing the grants of a key follow the ordinal held. -/
theorem Lawful.granted_consecutive (lawful : store.Lawful)
    (served : store.serveAll start calls = some finish)
    (uncleared : ∀ call ∈ calls, store.clears call = false) (key : Digest) :
    granted key calls = List.range' (store.held start key + 1) (granted key calls).length := by
  have tickets := ((lawful.moved served).tickets (steps_uncleared uncleared) key).2
  rwa [ticketsOf_step] at tickets

theorem Lawful.granted_length_le (lawful : store.Lawful)
    (served : store.serveAll start calls = some finish)
    (uncleared : ∀ call ∈ calls, store.clears call = false) {key : Digest} {limit : Nat}
    (within : ∀ ordinal ∈ granted key calls, ordinal ≤ limit) :
    (granted key calls).length ≤ limit := by
  have tickets : (∀ ticket ∈ ticketsOf key (calls.map store.step), ticket ≤ limit) → _ :=
    (lawful.moved served).tickets_length_le (steps_uncleared uncleared)
  rw [ticketsOf_step] at tickets
  exact tickets within

end Uncleared

end RetryStore

/-- A granted ordinal is that of a granted reservation. -/
private theorem mem_granted {key : Digest} {ordinal : Nat} {calls : List StoreCall}
    (member : ordinal ∈ granted key calls) :
    ∃ reservation, .reserve reservation (.ok ()) ∈ calls ∧ reservation.ordinal = ordinal := by
  obtain ⟨call, present, grant⟩ := List.mem_filterMap.mp member
  unfold StoreCall.grantOf at grant
  split at grant
  · rename_i reservation
    refine ⟨reservation, present, ?_⟩
    split at grant
    · exact Option.some_inj.mp grant
    · cases grant
  · cases grant

/-- A run asks for ordinals within its limit. -/
theorem Kept.reservation {policy : FaultPolicy} {trace : Trace I O} (kept : Kept policy trace)
    {reservation : RetryReservation} {answer : Except FaultStateError Unit}
    (asked : .reserve reservation answer ∈ storeCalls trace) :
    0 < reservation.ordinal ∧ reservation.ordinal ≤ policy.retryLimit := by
  obtain ⟨event, present, call⟩ := List.mem_filterMap.mp asked
  obtain ⟨before, after, split⟩ := List.append_of_mem present
  have here := kept before event after split
  obtain ⟨query, given⟩ := event
  cases query with
  | reserve other =>
    cases Option.some_inj.mp call
    exact here
  | commit _ _ _ _ => cases given <;> cases call
  | _ => cases call

/-- Inside a checkpoint generation a run clears nothing behind its first call. -/
theorem Kept.clears_first {policy : FaultPolicy} {before rest after : Trace I O}
    {event : Event I O} (kept : Kept policy (before ++ event :: rest ++ after))
    (inside : ∀ later ∈ event :: rest, later.endsGeneration = false) :
    StoreCall.clearResolved ∉ storeCalls rest := by
  intro member
  obtain ⟨clearing, present, call⟩ := List.mem_filterMap.mp member
  obtain ⟨front, back, split⟩ := List.append_of_mem present
  have opened : before ++ event :: rest ++ after =
      (before ++ event :: front) ++ clearing :: (back ++ after) := by
    rw [split]
    simp
  have here := kept _ _ _ opened
  obtain ⟨query, answer⟩ := clearing
  cases query with
  | clearResolved =>
    -- a clearing stands directly behind a commit, which the generation does not hold
    obtain ⟨earlier, counts, progress, componentState, slots, receipt, last⟩ := here
    have commit : (⟨.commit counts progress componentState slots, .ok receipt⟩ : Event I O) ∈
        event :: rest := by
      have shape : (event :: front).getLast? =
          some ⟨.commit counts progress componentState slots, .ok receipt⟩ := by
        have whole := congrArg List.getLast? last
        rw [List.getLast?_append_of_ne_nil _ (List.cons_ne_nil _ _), List.getLast?_concat] at whole
        exact whole
      have found := List.mem_of_getLast? shape
      rw [split]
      rcases List.mem_cons.mp found with first | later
      · exact first ▸ List.mem_cons_self
      · exact List.mem_cons_of_mem _ (List.mem_append_left _ later)
    cases inside _ commit
  | commit _ _ _ _ => cases answer <;> cases call
  | _ => cases call

/-- The calls of a generation are not commits. -/
private theorem committed_notMem_storeCalls {generation : Trace I O}
    (inside : ∀ event ∈ generation, event.endsGeneration = false) (receipt : CommitReceipt) :
    StoreCall.committed receipt ∉ storeCalls generation := by
  intro member
  obtain ⟨event, present, call⟩ := List.mem_filterMap.mp member
  have here := inside event present
  obtain ⟨query, answer⟩ := event
  cases query with
  | commit _ _ _ _ =>
    cases answer with
    | ok _ => cases here
    | error _ => cases call
  | _ => cases call

theorem Kept.granted_within {policy : FaultPolicy} {trace : Trace I O} (kept : Kept policy trace)
    {calls : List StoreCall} (part : ∀ call ∈ calls, call ∈ storeCalls trace) (key : Digest) :
    ∀ ordinal ∈ granted key calls, ordinal ≤ policy.retryLimit := by
  intro ordinal member
  obtain ⟨reservation, asked, rfl⟩ := mem_granted member
  exact (kept.reservation (part _ asked)).2

namespace RetryStore

variable {store : RetryStore State} {start finish : State}

/-- Inside a checkpoint generation of a run with the store to itself, no key is granted
more ordinals than the limit. -/
theorem Lawful.generation_bound (lawful : store.Lawful) {policy : FaultPolicy}
    {before generation after : Trace I O} (kept : Kept policy (before ++ generation ++ after))
    (served : store.serveAll start (storeCalls (before ++ generation)) = some finish)
    (inside : ∀ event ∈ generation, event.endsGeneration = false) (key : Digest) :
    (granted key (storeCalls generation)).length ≤ policy.retryLimit := by
  have asked : ∀ call ∈ storeCalls generation,
      call ∈ storeCalls (before ++ generation ++ after) := by
    intro call member
    rw [storeCalls_append, storeCalls_append]
    exact List.mem_append_left _ (List.mem_append_right _ member)
  rw [storeCalls_append] at served
  obtain ⟨reached, _, served⟩ := serveAll_append served
  cases generation with
  | nil => exact Nat.zero_le _
  | cons event rest =>
    have later := kept.clears_first inside
    have spared : ∀ call ∈ storeCalls (event :: rest), call ≠ .clearResolved →
        store.clears call = false := by
      intro call member plain
      refine lawful.spares ⟨plain, fun receipt same => ?_⟩
      exact committed_notMem_storeCalls inside receipt (same ▸ member)
    by_cases first : event.storeCall = some .clearResolved
    · have opened : storeCalls (event :: rest) = .clearResolved :: storeCalls rest :=
        List.filterMap_cons_some first
      rw [opened] at served asked spared ⊢
      obtain ⟨next, _, served⟩ := serveAll_cons served
      have rested : ∀ call ∈ storeCalls rest, store.clears call = false := fun call member =>
        spared call (List.mem_cons_of_mem _ member) fun same => later (same ▸ member)
      exact lawful.granted_length_le served rested
        (kept.granted_within (fun call member => asked call (List.mem_cons_of_mem _ member)) key)
    · refine lawful.granted_length_le served (fun call member => spared call member ?_)
        (kept.granted_within asked key)
      intro same
      obtain ⟨source, present, call_eq⟩ := List.mem_filterMap.mp member
      rcases List.mem_cons.mp present with here | behind
      · exact first (here ▸ same ▸ call_eq)
      · exact later (List.mem_filterMap.mpr ⟨source, behind, same ▸ call_eq⟩)

variable {runs : List ChunkRun} {history : List (Nat × StoreCall)}

theorem Interleaved.reservation (interleaved : store.Interleaved runs start history finish)
    {index : Nat} {reservation : RetryReservation} {answer : Except FaultStateError Unit}
    (asked : (index, .reserve reservation answer) ∈ history) :
    ∃ chunkRun, runs[index]? = some chunkRun ∧ 0 < reservation.ordinal ∧
      reservation.ordinal ≤ chunkRun.policy.retryLimit := by
  have owner := interleaved.owned _ asked
  refine ⟨runs[index], List.getElem?_eq_getElem owner, ?_⟩
  have own : .reserve reservation answer ∈ callsOf index history :=
    List.mem_filterMap.mpr ⟨_, asked, if_pos rfl⟩
  have made := (interleaved.ordered index _ (List.getElem?_eq_getElem owner)).subset own
  exact runs[index].kept.reservation made

/-- Between two clearings no key is granted more often than the largest limit. -/
theorem Lawful.uncleared_bound (lawful : store.Lawful)
    (interleaved : store.Interleaved runs start history finish)
    {before between after : List (Nat × StoreCall)} {limit : Nat}
    (split : history = before ++ between ++ after)
    (uncleared : ∀ entry ∈ between, store.clears entry.2 = false)
    (limited : ∀ chunkRun ∈ runs, chunkRun.policy.retryLimit ≤ limit) (key : Digest) :
    (granted key (between.map Prod.snd)).length ≤ limit := by
  have whole := interleaved.served
  rw [split, List.map_append, List.map_append, List.append_assoc] at whole
  obtain ⟨_, _, rest⟩ := serveAll_append whole
  obtain ⟨_, middle, _⟩ := serveAll_append rest
  refine lawful.granted_length_le middle ?_ ?_
  · intro call member
    obtain ⟨entry, present, rfl⟩ := List.mem_map.mp member
    exact uncleared entry present
  · intro ordinal member
    obtain ⟨reservation, asked, rfl⟩ := mem_granted member
    obtain ⟨entry, present, same⟩ := List.mem_map.mp asked
    have inHistory : (entry.1, StoreCall.reserve reservation (.ok ())) ∈ history := by
      rw [split, ← same]
      exact List.mem_append_left _ (List.mem_append_right _ present)
    obtain ⟨chunkRun, owner, _, within⟩ := interleaved.reservation inHistory
    exact within.trans (limited chunkRun (List.mem_of_getElem? owner))

/-- Any interleaving of any number of runs over a lawful store keeps the budget. -/
theorem Lawful.budget (lawful : store.Lawful)
    (interleaved : store.Interleaved runs start history finish) :
    store.Budget runs start history where
  consecutive before between after reached key split served uncleared := by
    have whole := interleaved.served
    rw [split, List.map_append, List.map_append, List.append_assoc] at whole
    obtain ⟨reached', served', rest⟩ := serveAll_append whole
    cases Option.some_inj.mp (served.symm.trans served')
    obtain ⟨_, middle, _⟩ := serveAll_append rest
    refine lawful.granted_consecutive middle ?_ key
    intro call member
    obtain ⟨entry, present, rfl⟩ := List.mem_map.mp member
    exact uncleared entry present
  restarts before entry after reached next _ _ served clears key := by
    have moves := lawful.moves served
    have cleared : store.step entry.2 = .cleared := by
      rcases lawful.sparing entry.2 clears with same | ⟨receipt, same⟩
      · rw [same] at clears ⊢
        exact if_pos clears
      · rw [same] at clears ⊢
        exact if_pos clears
    rw [cleared] at moves
    exact moves key
  within _ _ asked := interleaved.reservation asked
  bounded _ _ _ _ key split uncleared limited :=
    lawful.uncleared_bound interleaved split uncleared limited key
  refused _ _ _ _ _ _ _ _ _ served := lawful.refused served
  alone chunkRun before generation _ part calls inside key := by
    obtain ⟨after, whole⟩ := part
    have kept := chunkRun.kept
    rw [← whole] at kept
    exact lawful.generation_bound kept (calls ▸ interleaved.served) inside key
  repaid chunkRun _ _ part := chunkRun.repaid part
  reinvoked index chunkRun reached before between after limit _ part split uncleared inside
      limited unit := by
    obtain ⟨checkpointDigest, baseOrdinal, ordinalOf, paid⟩ := chunkRun.repaid part
    refine (paid unit).trans ((granted_length_mono (inside.trans (callsOf_sublist _ _)) _).trans ?_)
    exact lawful.uncleared_bound interleaved split uncleared limited _
  reinvokedAlone chunkRun reached _ part calls unit := by
    obtain ⟨checkpointDigest, baseOrdinal, ordinalOf, paid⟩ := chunkRun.repaid part
    obtain ⟨⟨before, split⟩, inside⟩ := generationOf_inner reached
    obtain ⟨after, whole⟩ := part
    have kept := chunkRun.kept
    rw [← whole, split] at kept
    have served : store.serveAll start (storeCalls (before ++ generationOf reached)) =
        some finish := by
      rw [← split, ← calls]
      exact interleaved.served
    exact (paid unit).trans (lawful.generation_bound kept served inside _)

end RetryStore

section Shared

def processings (trace : Trace Nat Nat) (call : Nat) : Nat :=
  trace.countP fun event =>
    match event.query with
    | .process other _ => other == call
    | _ => false

def twoRecords : Nat → Invoked (ReadOutcome Nat) ReaderError
  | 0 => .completed (.item 7)
  | 1 => .completed (.item 8)
  | _ => .completed .endOfInput

def steadyProcessor : Environment Nat Nat :=
  scripted twoRecords fun _ _ input => .completed (.item input)

/-- A processor that fails on its first and third try of the first record and on its first
try of the second. -/
def flakyProcessor : Environment Nat Nat :=
  scripted twoRecords fun trace call input =>
    match call, processings trace call with
    | 0, 0 | 0, 2 | 1, 0 => .failed .new
    | _, _ => .completed (.item input)

/-- One retry of failed processings. -/
def processPolicy : FaultPolicy :=
  ⟨⟨⟨"r1", Eq.refl true⟩, [⟨.userComponent, .process, .retry⟩]⟩, 1, 16, 1, ⟨.none, 0, 1, 0⟩⟩

def pairRun (env : Environment Nat Nat) (checkpointDigest : Digest) : ChunkRun :=
  ⟨Nat, Nat, env, pairComponents, processPolicy, .atLeastOnce, 5, 5, checkpointDigest,
    .inheriting .zero .zero 0⟩

/-- Two runs over one store. -/
def sharingRuns : List ChunkRun := [pairRun steadyProcessor [9], pairRun flakyProcessor []]

/-- The flaky run up to its second retry, then the whole steady run with its commit and
clearing, then the rest of the flaky run. -/
def sharedHistory : List (Nat × StoreCall) :=
  let flaky := storeCalls (pairRun flakyProcessor []).trace
  (flaky.take 7).map (1, ·) ++ (storeCalls (pairRun steadyProcessor [9]).trace).map (0, ·) ++
    (flaky.drop 7).map (1, ·)

private theorem sharedHistory_interleaved :
    ∃ finish, memoryStore.Interleaved sharingRuns (.new 16) sharedHistory finish := by
  have served : (memoryStore.serveAll (.new 16) (sharedHistory.map Prod.snd)).isSome = true := by
    decide +kernel
  obtain ⟨finish, served⟩ := Option.isSome_iff_exists.mp served
  refine ⟨finish, served, by decide +kernel, ?_⟩
  intro index chunkRun found
  match index with
  | 0 =>
    cases found
    have whole : callsOf 0 sharedHistory = storeCalls (pairRun steadyProcessor [9]).trace := by
      decide +kernel
    exact whole ▸ List.prefix_rfl
  | 1 =>
    cases found
    have whole : callsOf 1 sharedHistory = storeCalls (pairRun flakyProcessor []).trace := by
      decide +kernel
    exact whole ▸ List.prefix_rfl
  | _ + 2 => cases found

end Shared

end OxideBatch.Chunk
