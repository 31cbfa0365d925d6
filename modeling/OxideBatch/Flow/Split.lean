import Mathlib
import OxideBatch.Flow.Base

/-! Split nodes: their branches run side by side under a bound, complete in some order,
and are joined into one result. -/

namespace OxideBatch.Flow

open OxideBatch.Core OxideBatch.Plan OxideBatch.Repository
open OxideBatch.Lib (beBytes textBytes)

section Join

structure SplitBranchRun extends ScopeRun where
  index : Nat

structure SplitRun extends ScopeRun where
  inputDigest : Digest

/-- Any other status dominates the aggregate. -/
def splitStatusSeverity : BatchStatus → Nat
  | .completed => 0
  | .stopped => 1
  | .failed => 2
  | .unknown => 3
  | _ => 4

def splitBranchBytes (digests : FlowDigests) (fingerprint : Digest) (branch : SplitBranchRun) :
    List UInt8 :=
  beBytes 8 branch.index ++ hashField (textBytes branch.status.asStr) ++
    hashField (textBytes branch.exitStatus.value) ++
    branch.states.flatMap fun state => digestBytes (stepInputDigest digests fingerprint state)

def splitInputDigest (digests : FlowDigests) (fingerprint : Digest) (join : NodeId)
    (branches : List SplitBranchRun) : Digest :=
  digests.sha256 <|
    textBytes "oxide-batch.split-aggregate-input.v1\x00" ++ digestBytes fingerprint ++
      hashField (textBytes join.value) ++
      branches.flatMap (splitBranchBytes digests fingerprint)

/-- `joined.sort_by_key(index)`. -/
def sortBranches (joined : List SplitBranchRun) : List SplitBranchRun :=
  joined.insertionSort fun left right => left.index ≤ right.index

/-- `max_by_key` over severities: the last status of the greatest. -/
def aggregateStatus : List BatchStatus → Option BatchStatus
  | [] => none
  | first :: rest => some (rest.foldl (fun held status =>
      if splitStatusSeverity held ≤ splitStatusSeverity status then status else held) first)

/-- Decisions by their sequence numbers. -/
def sortDecisions (decisions : List FlowDecision) : List FlowDecision :=
  decisions.insertionSort fun left right => left.sequence.get ≤ right.sequence.get

/-- What the sorted branches are joined into. -/
def joinBranches (digests : FlowDigests) (fingerprint : Digest) (join : NodeId)
    (joined : List SplitBranchRun) : Except FlowRuntimeError SplitRun := do
  let status ← require (aggregateStatus (joined.map (·.status))) .flowStateCorrupt
    |>.mapError .repository
  let selected ← require (joined.find? (·.status = status)) .flowStateCorrupt
    |>.mapError .repository
  pure
    { status
      exitStatus := selected.exitStatus
      failure := selected.failure
      flowFailure := selected.flowFailure
      inputDigest := splitInputDigest digests fingerprint join joined
      stepExecutions := joined.flatMap (·.stepExecutions)
      decisions := sortDecisions (joined.flatMap (·.decisions))
      states := joined.flatMap (·.states)
      listenerFailures := joined.flatMap (·.listenerFailures) }

/-- `finish_split_run`. -/
def finishSplitRun (digests : FlowDigests) (fingerprint : Digest) (split : SplitNode FlowGraph)
    (joined : List SplitBranchRun) : Except FlowRuntimeError SplitRun :=
  let joined := sortBranches joined
  if joined.length ≠ split.branches.length then .error (.repository .flowStateCorrupt)
  else joinBranches digests fingerprint split.join joined

end Join

section Turns

/-- What a branch returns, by its index and by whether the stop of the split was
requested while it ran. -/
abbrev BranchAnswers := Nat → Bool → Except FlowRuntimeError ScopeRun

/-- What the join of a split waits for. -/
inductive SplitTurn where
  | completes (index : Nat)
  | parentStops
  deriving DecidableEq

/-- The local state of the join loop; `finished` are the branches in the order of their
completion. -/
structure SplitJoin where
  finished : List Nat
  joined : List SplitBranchRun
  firstError : Option FlowRuntimeError
  stopRequested : Bool
  parentStopObserved : Bool

namespace SplitJoin

def start (parentStopped : Bool) : SplitJoin := ⟨[], [], none, parentStopped, parentStopped⟩

/-- `buffer_unordered`: branches start in order, as many at once as the budget allows. -/
def running (split : SplitNode FlowGraph) (state : SplitJoin) (index : Nat) : Bool :=
  index < split.branches.length &&
    index < state.finished.length + split.maxParallelBranches && !state.finished.contains index

/-- Whether a branch asks its siblings to stop. -/
def cancels (split : SplitNode FlowGraph) (run : ScopeRun) : Bool :=
  split.failurePolicy = .cancelSiblings && (run.status = .failed || run.status = .unknown)

/-- One turn of the join loop; `none` where the turn cannot come. -/
def turn (split : SplitNode FlowGraph) (answers : BranchAnswers) (state : SplitJoin) :
    SplitTurn → Option SplitJoin
  | .completes index =>
    if state.running split index then
      match answers index state.stopRequested with
      | .ok run => some
        { state with
          finished := state.finished ++ [index]
          joined := state.joined ++ [⟨run, index⟩]
          stopRequested := state.stopRequested || cancels split run }
      | .error error => some
        { state with
          finished := state.finished ++ [index]
          firstError := state.firstError.or (some error)
          stopRequested := true }
    else none
  | .parentStops =>
    if state.parentStopObserved then none
    else some { state with parentStopObserved := true, stopRequested := true }

end SplitJoin

/-- `run_split` along its turns; `none` unless they are those of a whole run. -/
def runSplit (digests : FlowDigests) (fingerprint : Digest) (split : SplitNode FlowGraph)
    (answers : BranchAnswers) (parentStopped : Bool) (turns : List SplitTurn) :
    Option (Except FlowRuntimeError SplitRun) := do
  let state ← turns.foldlM (SplitJoin.turn split answers) (.start parentStopped)
  if state.finished.length ≠ split.branches.length then none
  else match state.firstError with
    | some error => some (.error error)
    | none => some (finishSplitRun digests fingerprint split state.joined)

end Turns

section Order

variable {split : SplitNode FlowGraph} {answers : BranchAnswers} {runs : Nat → ScopeRun}

/-- The join of undisturbed branches: what it holds is what the finished ones returned. -/
structure Undisturbed (split : SplitNode FlowGraph) (runs : Nat → ScopeRun) (state : SplitJoin) :
    Prop where
  nodup : state.finished.Nodup
  within : ∀ index ∈ state.finished, index < split.branches.length
  joined : state.joined = state.finished.map fun index => ⟨runs index, index⟩
  errorless : state.firstError = none
  running : state.stopRequested = false

/-- One branch more keeps a join undisturbed. -/
theorem Undisturbed.turn {state state' : SplitJoin} {index : Nat}
    (undisturbed : Undisturbed split runs state) (drains : split.failurePolicy = .drainSiblings)
    (answered : ∀ index < split.branches.length, answers index false = .ok (runs index))
    (taken : state.turn split answers (.completes index) = some state') :
    Undisturbed split runs state' := by
  simp only [SplitJoin.turn] at taken
  split at taken
  · rename_i runs'
    simp only [SplitJoin.running, Bool.and_eq_true, decide_eq_true_eq, Bool.not_eq_true',
      List.contains_eq_mem, decide_eq_false_iff_not] at runs'
    obtain ⟨⟨within, _⟩, fresh⟩ := runs'
    rw [undisturbed.running, answered index within] at taken
    obtain rfl := Option.some.inj taken
    refine ⟨?_, ?_, ?_, undisturbed.errorless, ?_⟩
    · exact List.nodup_append.mpr ⟨undisturbed.nodup, List.nodup_singleton _, by
        intro earlier member last same
        rw [List.mem_singleton.mp same]
        exact fun equal => fresh (equal ▸ member)⟩
    · intro other member
      rcases List.mem_append.mp member with earlier | last
      · exact undisturbed.within other earlier
      · rw [List.mem_singleton.mp last]
        exact within
    · change state.joined ++ _ = (state.finished ++ [index]).map _
      rw [undisturbed.joined, List.map_append, List.map_singleton]
    · simp [SplitJoin.cancels, drains]
  · cases taken

/-- Branches that complete in any order leave the join undisturbed. -/
theorem Undisturbed.turns {order : List Nat} {state state' : SplitJoin}
    (undisturbed : Undisturbed split runs state) (drains : split.failurePolicy = .drainSiblings)
    (answered : ∀ index < split.branches.length, answers index false = .ok (runs index))
    (taken : (order.map SplitTurn.completes).foldlM (SplitJoin.turn split answers) state =
      some state') : Undisturbed split runs state' := by
  induction order generalizing state with
  | nil =>
    obtain rfl := Option.some.inj taken
    exact undisturbed
  | cons index order ih =>
    simp only [List.map_cons, List.foldlM_cons, Option.bind_eq_bind,
      Option.bind_eq_some_iff] at taken
    obtain ⟨middle, first, rest⟩ := taken
    exact ih (undisturbed.turn drains answered first) rest

/-- Branches by index, whatever the order in which they were joined. -/
private theorem sortBranches_of_perm {joined : List SplitBranchRun} {count : Nat}
    (all : joined.Perm ((List.range count).map fun index => ⟨runs index, index⟩)) :
    sortBranches joined = (List.range count).map fun index => ⟨runs index, index⟩ := by
  have increasing : ((List.range count).map fun index =>
      (⟨runs index, index⟩ : SplitBranchRun)).Pairwise (fun left right => left.index < right.index) := by
    rw [List.pairwise_map]
    exact List.pairwise_lt_range
  have same : (sortBranches joined).Perm _ := (List.perm_insertionSort _ joined).trans all
  have distinct : (sortBranches joined).Pairwise (fun left right => left.index ≠ right.index) :=
    (same.pairwise_iff (fun different => Ne.symm different)).mpr (increasing.imp Nat.ne_of_lt)
  have sorted : (sortBranches joined).Pairwise (fun left right => left.index ≤ right.index) :=
    List.pairwise_insertionSort _ joined
  refine List.Perm.eq_of_pairwise ?_ ((sorted.and distinct).imp ?_) increasing same
  · intro left right _ _ less greater
    exact absurd greater (Nat.lt_asymm less)
  · intro left right ordered
    exact Nat.lt_of_le_of_ne ordered.1 ordered.2

/-- A whole undisturbed run is the join of its branches by index. -/
private theorem runSplit_undisturbed {digests : FlowDigests} {fingerprint : Digest}
    {order : List Nat} {result : Except FlowRuntimeError SplitRun}
    (drains : split.failurePolicy = .drainSiblings)
    (answered : ∀ index < split.branches.length, answers index false = .ok (runs index))
    (whole : runSplit digests fingerprint split answers false (order.map .completes) =
      some result) :
    result = joinBranches digests fingerprint split.join
      ((List.range split.branches.length).map fun index => ⟨runs index, index⟩) := by
  simp only [runSplit, Option.bind_eq_bind, Option.bind_eq_some_iff] at whole
  obtain ⟨state, turned, whole⟩ := whole
  have start : Undisturbed split runs (.start false) :=
    ⟨List.nodup_nil, by simp [SplitJoin.start], rfl, rfl, rfl⟩
  have undisturbed := start.turns drains answered turned
  split at whole
  · cases whole
  · rename_i complete
    have complete : state.finished.length = split.branches.length := by
      simpa using complete
    simp only [undisturbed.errorless, Option.some.injEq] at whole
    have all : state.finished.Perm (List.range split.branches.length) := by
      refine (List.subperm_of_subset undisturbed.nodup ?_).perm_of_length_le ?_
      · intro index member
        exact List.mem_range.mpr (undisturbed.within index member)
      · rw [List.length_range, complete]
    have sorted : sortBranches state.joined = (List.range split.branches.length).map
        fun index => ⟨runs index, index⟩ := by
      rw [undisturbed.joined]
      exact sortBranches_of_perm (all.map _)
    rw [← whole, finishSplitRun, sorted]
    simp

end Order

section Severity

/-- The status of a join is among its branches, and none is more severe. -/
private theorem aggregateStatus_greatest {statuses : List BatchStatus} {status : BatchStatus}
    (aggregated : aggregateStatus statuses = some status) :
    status ∈ statuses ∧
      ∀ other ∈ statuses, splitStatusSeverity other ≤ splitStatusSeverity status := by
  cases statuses with
  | nil => cases aggregated
  | cons first rest =>
    obtain rfl := Option.some.inj aggregated
    clear aggregated
    induction rest generalizing first with
    | nil => simp
    | cons next rest ih =>
      rw [List.foldl_cons]
      split
      · rename_i least
        obtain ⟨found, greatest⟩ := ih next
        refine ⟨List.mem_cons_of_mem _ found, ?_⟩
        intro other member
        rcases List.mem_cons.mp member with rfl | later
        · exact least.trans (greatest next List.mem_cons_self)
        · exact greatest other later
      · rename_i greater
        obtain ⟨found, greatest⟩ := ih first
        refine ⟨?_, ?_⟩
        · rcases List.mem_cons.mp found with same | later
          · rw [same]
            exact List.mem_cons_self
          · exact List.mem_cons_of_mem _ (List.mem_cons_of_mem _ later)
        · intro other member
          rcases List.mem_cons.mp member with rfl | later
          · exact greatest other List.mem_cons_self
          · rcases List.mem_cons.mp later with rfl | rest'
            · exact (Nat.le_of_not_le greater).trans (greatest first List.mem_cons_self)
            · exact greatest other (List.mem_cons_of_mem _ rest')

/-- The first branch of a status is the one that a join selects. -/
private theorem find_first {runs : Nat → ScopeRun} {count index : Nat} {status : BatchStatus}
    (within : index < count) (has : (runs index).status = status) :
    ∃ first < count, (runs first).status = status ∧
      (∀ earlier < first, (runs earlier).status ≠ status) ∧
      ((List.range count).map fun index => (⟨runs index, index⟩ : SplitBranchRun)).find?
        (·.status = status) = some ⟨runs first, first⟩ := by
  have some' : ∃ first, first < count ∧ (runs first).status = status := ⟨index, within, has⟩
  obtain ⟨inside, found⟩ := Nat.find_spec some'
  have least : ∀ earlier < Nat.find some', (runs earlier).status ≠ status := by
    intro earlier before same
    exact Nat.find_min some' before ⟨before.trans inside, same⟩
  refine ⟨Nat.find some', inside, found, least, ?_⟩
  have first : (List.range count).find?
      ((fun branch => decide (branch.status = status)) ∘ fun index =>
        (⟨runs index, index⟩ : SplitBranchRun)) = some (Nat.find some') := by
    refine List.find?_range_eq_some.mpr ⟨by simpa using found, List.mem_range.mpr inside, ?_⟩
    intro earlier before
    simpa using least earlier before
  rw [List.find?_map, first, Option.map_some]

/-- The severities rank the ended statuses. -/
private theorem splitStatusSeverity_lt {worse milder : BatchStatus}
    (outweighs : worse.Outweighs milder) :
    splitStatusSeverity milder < splitStatusSeverity worse := by
  cases worse <;> cases milder <;> first | decide | exact outweighs.elim

private theorem joinBranches_ok {digests : FlowDigests} {fingerprint : Digest} {join : NodeId}
    {joined : List SplitBranchRun} {status : BatchStatus} {selected : SplitBranchRun}
    (aggregated : aggregateStatus (joined.map (·.status)) = some status)
    (found : joined.find? (·.status = status) = some selected) :
    joinBranches digests fingerprint join joined =
      .ok
        { status
          exitStatus := selected.exitStatus
          failure := selected.failure
          flowFailure := selected.flowFailure
          inputDigest := splitInputDigest digests fingerprint join joined
          stepExecutions := joined.flatMap (·.stepExecutions)
          decisions := sortDecisions (joined.flatMap (·.decisions))
          states := joined.flatMap (·.states)
          listenerFailures := joined.flatMap (·.listenerFailures) } := by
  rw [joinBranches, aggregated]
  change (Except.mapError _ (require (joined.find? (·.status = status)) _) >>= _) = _
  rw [found]
  rfl

/-- A split has one result for all orders in which its branches complete: the most severe
status, with the exit status and failures of the first branch that has it. -/
theorem split_result_in_any_order (digests : FlowDigests) (fingerprint : Digest)
    (split : SplitNode FlowGraph) (answers : BranchAnswers) (runs : Nat → ScopeRun)
    (nonempty : split.branches ≠ []) (drains : split.failurePolicy = .drainSiblings)
    (answered : ∀ index < split.branches.length, answers index false = .ok (runs index)) :
    ∃ joined : SplitRun,
      (∀ (order : List Nat) result,
        runSplit digests fingerprint split answers false (order.map .completes) = some result →
        result = .ok joined) ∧
      (∀ index < split.branches.length, ¬ (runs index).status.Outweighs joined.status) ∧
      ∃ first < split.branches.length, joined.status = (runs first).status ∧
        (∀ earlier < first, (runs earlier).status ≠ joined.status) ∧
        joined.exitStatus = (runs first).exitStatus ∧ joined.failure = (runs first).failure ∧
        joined.flowFailure = (runs first).flowFailure := by
  let joined := (List.range split.branches.length).map fun index =>
    (⟨runs index, index⟩ : SplitBranchRun)
  have length : joined.length = split.branches.length := by simp [joined]
  obtain ⟨status, aggregated⟩ : ∃ status, aggregateStatus (joined.map (·.status)) = some status := by
    cases statuses : joined.map (·.status) with
    | nil =>
      have none : split.branches.length = 0 := by rw [← length, ← List.length_map, statuses]; rfl
      exact absurd (List.length_eq_zero_iff.mp none) nonempty
    | cons first rest => exact ⟨_, rfl⟩
  obtain ⟨among, greatest⟩ := aggregateStatus_greatest aggregated
  obtain ⟨index, within, has⟩ : ∃ index < split.branches.length, (runs index).status = status := by
    simpa [joined] using among
  obtain ⟨first, inside, same, least, found⟩ := find_first within has
  have made := @joinBranches_ok digests fingerprint split.join joined _ _ aggregated found
  refine ⟨_, fun order result whole => (runSplit_undisturbed drains answered whole).trans made, ?_,
    first, inside, same.symm, least, rfl, rfl, rfl⟩
  intro index within outweighs
  have branch : (⟨runs index, index⟩ : SplitBranchRun) ∈ joined :=
    List.mem_map.mpr ⟨index, List.mem_range.mpr within, rfl⟩
  have severe := greatest _ (List.mem_map_of_mem branch)
  exact absurd (splitStatusSeverity_lt outweighs) (Nat.not_lt.mpr severe)

/-- One branch stopped, two failed, each with its own exit status, and the last completed. -/
def forkedRuns : Nat → ScopeRun
  | 0 => ⟨.stopped, exitStopped, none, none, [], [], [], []⟩
  | 1 => ⟨.failed, exitFailed, none, some .failTerminal, [], [], [], []⟩
  | 2 => ⟨.failed, ⟨"REJECTED", Eq.refl true⟩, none, none, [], [], [], []⟩
  | _ => ⟨.completed, ⟨"COMPLETED", Eq.refl true⟩, none, none, [], [], [], []⟩

def forkedSplit : SplitNode FlowGraph :=
  ⟨⟨"fork", Eq.refl true⟩, List.replicate 4 ⟨[], none⟩, ⟨"join", Eq.refl true⟩, 3, .drainSiblings⟩

theorem forked_split_in_any_order :
    ∃ joined : SplitRun, joined.status = .failed ∧ joined.exitStatus = exitFailed ∧
      ∀ order ∈ [[0, 1, 2, 3], [2, 1, 0, 3], [1, 3, 2, 0], [2, 3, 1, 0]],
        runSplit ⟨fun _ => 0, fun _ => none⟩ 0 forkedSplit
          (fun index _ => .ok (forkedRuns index)) false (order.map .completes) =
          some (.ok joined) := by
  obtain ⟨joined, always, severe, first, inside, same, least, exit, _⟩ := split_result_in_any_order
    ⟨fun _ => 0, fun _ => none⟩ 0 forkedSplit (fun index _ => .ok (forkedRuns index))
    forkedRuns (by simp [forkedSplit]) rfl (fun _ _ => rfl)
  have failed : joined.status = .failed ∧ joined.exitStatus = exitFailed := by
    match first, inside with
    | 0, _ =>
      have unmatched := severe 1 (by decide)
      rw [same] at unmatched
      exact absurd trivial unmatched
    | 1, _ => exact ⟨same, exit⟩
    | 2, _ => exact absurd same.symm (least 1 (by decide))
    | 3, _ =>
      have unmatched := severe 1 (by decide)
      rw [same] at unmatched
      exact absurd trivial unmatched
  refine ⟨joined, failed.1, failed.2, ?_⟩
  intro order member
  obtain ⟨result, computed⟩ : ∃ result, runSplit ⟨fun _ => 0, fun _ => none⟩ 0 forkedSplit
      (fun index _ => .ok (forkedRuns index)) false (order.map .completes) = some result := by
    simp only [List.mem_cons, List.not_mem_nil, or_false] at member
    rcases member with rfl | rfl | rfl | rfl
    · exact ⟨_, rfl⟩
    · exact ⟨_, rfl⟩
    · exact ⟨_, rfl⟩
    · exact ⟨_, rfl⟩
  rw [computed, always order result computed]

end Severity

end OxideBatch.Flow
