import OxideBatch.Repository.Repeats

/-! The history of the repeats of an instance: gap-free, settled by its last iteration,
nested, and answered again as it was answered first. -/

namespace OxideBatch.Repository

open OxideBatch.Core OxideBatch.Plan Program
open Std (ExtTreeMap ExtTreeSet)
open Tables

variable {reader : DefinitionReader} {state state' : MemoryState} {instanceId : JobInstanceId}
  {history : List RepeatExecution} {request : RepeatCommitRequest} {entries : List Entry}

section Replays

/-- The step of a request is still the node's own, or the one worker of a partition. -/
def StillOwned (reader : DefinitionReader) (state : MemoryState) (request : RepeatCommitRequest) :
    Prop :=
  ∀ step definition owner, state.stepExecutions[request.stepExecutionId]? = some step →
    state.executionDefinitions[step.jobExecutionId]? = some definition →
    reader.repeatOwner definition request = some owner →
    validateRepeatOwner reader state request owner = .ok ()

/-- The latest iteration of an open lineage is answered again, and nothing changes. -/
theorem Recorded.replays (recorded : Recorded reader instanceId history state.core)
    (latest : iterations.latest history (nodePath request.nodeId request.lineage)
      (request.nodeId, request.repeatId) = some request)
    (opened : iterations.Open history (nodePath request.nodeId request.lineage))
    (owned : StillOwned reader state request) :
    commitRepeatIteration reader request state = .ok ((request, false), state) := by
  have member : request ∈ history :=
    (Lib.Iterated.mem_own.mp (List.mem_of_getLast? latest)).1
  have enclosed := recorded.enclosed request member opened
  rw [← recorded.latest _ _ _ opened] at latest
  obtain ⟨stepId, within, held⟩ := List.exists_of_findSome?_eq_some latest
  obtain ⟨logical, found, _⟩ := iterationAt_some.mp held
  have listed := List.mem_reverse.mp within
  obtain ⟨step, row, stored, launched, same⟩ := of_listed recorded.indexed recorded.steps listed
  obtain ⟨step', stored', _, isKey, _, definition, defined, matched, declared⟩ :=
    recorded.stands listed found
  rw [stored] at stored'
  cases stored'
  obtain rfl : stepId = request.stepExecutionId := congrArg Prod.fst isKey
  obtain ⟨owner, declared⟩ := Option.isSome_iff_exists.mp declared
  have ofInstance := recorded.ofInstance request member
  obtain ⟨executions, lists, _⟩ := recorded.indexed.listed.complete _ row launched
  have lineage : validateRepeatLineage state request [] request.lineage = .ok () :=
    recorded.passes ofInstance (same ▸ mem_of_lookup lists) opened enclosed
  have valid : validateRepeatRequest reader state request = .ok () :=
    validateRepeatRequest_ok.mpr ⟨step, row, definition, owner, stored, logical, launched,
      same.trans ofInstance.symm, defined, matched, declared,
      owned step definition owner stored defined declared, lineage⟩
  have kept : state.repeatExecutions[(request.stepExecutionId, request.repeatId)]?.filter
      (·.lineage = request.lineage) = some request := by
    rw [show state.repeatExecutions[(request.stepExecutionId, request.repeatId)]? = some request
      from found]
    simp [Option.filter]
  have again : exactReplay request request = true := by simp [exactReplay]
  simp only [commitRepeatIteration, bind_yields, get_yields, lift_yields, valid, existsAndEq,
    and_true, true_and, kept, again, if_true, pure_yields]
  exact ⟨(), trivial⟩

/-- The owner of a request is looked up in the core tables. -/
private theorem validateRepeatOwner_core (same : state'.core = state.core)
    (owner : RepeatManifestOwner) :
    validateRepeatOwner reader state' request owner =
      validateRepeatOwner reader state request owner := by
  have partitions : state'.stepPartitions = state.stepPartitions :=
    congrArg CoreTables.stepPartitions same
  have steps : state'.stepExecutions = state.stepExecutions :=
    congrArg CoreTables.stepExecutions same
  have nodes : state'.stepLogicalIds = state.stepLogicalIds :=
    congrArg CoreTables.stepLogicalIds same
  cases owner with
  | static => rfl
  | partitioned manager => rw [validateRepeatOwner, validateRepeatOwner, partitions, steps, nodes]

/-- The last operation behind a state led to it, up to its revision. -/
theorem Follows.last {entry : Entry} (follows : Follows reader (entries ++ [entry]) state) :
    Follows reader entries entry.before ∧ ∃ after,
      entry.operation.perform reader entry.supply entry.createdPlans entry.before =
        .ok ((), after) ∧ state.core = after.core := by
  generalize whole : entries ++ [entry] = all at follows
  induction follows with
  | start => simp at whole
  | revised revision follows ih =>
    obtain ⟨before, after, done, same⟩ := ih whole
    exact ⟨before, after, done, same⟩
  | performed follows done ih =>
    obtain ⟨rfl, same⟩ := List.append_inj' whole rfl
    obtain rfl := List.singleton_inj.mp same
    exact ⟨follows, _, done, rfl⟩

end Replays

section Results

/-- The accepted iterations of an instance, and what resubmitting them does. -/
structure OneHistory (reader : DefinitionReader) (instanceId : JobInstanceId)
    (entries : List Entry) (state : MemoryState) : Prop where
  counted : ∀ nodeId repeatId lineage accepted,
    (acceptedIterations reader instanceId entries).filter (fun record =>
      record.nodeId = nodeId ∧ record.repeatId = repeatId ∧ record.lineage = lineage) = accepted →
    accepted.map (·.ordinal.val) = List.range accepted.length
  settled : ∀ nodeId repeatId lineage front last,
    (acceptedIterations reader instanceId entries).filter (fun record =>
      record.nodeId = nodeId ∧ record.repeatId = repeatId ∧ record.lineage = lineage) =
        front ++ [last] →
    ∀ earlier ∈ front, earlier.decision = .continue
  nested : ∀ before entry after record, entries = before ++ entry :: after →
    entry.recorded reader = some record → record.jobInstanceId = instanceId →
    iterations.Open (acceptedIterations reader instanceId before)
      (nodePath record.nodeId record.lineage)
  resubmitted : ∀ before entry record, entries = before ++ [entry] →
    entry.recorded reader = some record → record.jobInstanceId = instanceId →
    commitRepeatIteration reader record state = .ok ((record, false), state)
  replayed : ∀ nodeId repeatId lineage record,
    ((acceptedIterations reader instanceId entries).filter (fun record =>
      record.nodeId = nodeId ∧ record.repeatId = repeatId ∧
        record.lineage = lineage)).getLast? = some record →
    iterations.Open (acceptedIterations reader instanceId entries) (nodePath nodeId lineage) →
    StillOwned reader state record →
    commitRepeatIteration reader record state = .ok ((record, false), state)

theorem Recorded.resubmitted {entry : Entry} {record : RepeatExecution}
    (follows : Follows reader (entries ++ [entry]) state)
    (allowed : ∀ other ∈ entries ++ [entry], Orderly reader instanceId other)
    (repeats : entry.recorded reader = some record) (same : record.jobInstanceId = instanceId) :
    commitRepeatIteration reader record state = .ok ((record, false), state) := by
  obtain ⟨before, after, done, core⟩ := follows.last
  obtain ⟨request, after', isCommit, accepted⟩ := recorded_iff.mp repeats
  obtain ⟨_, recordedBefore⟩ := before.recorded fun other member =>
    allowed other (List.mem_append_left _ member)
  obtain ⟨_, recordedAfter⟩ := follows.recorded allowed
  rw [isCommit] at done
  obtain ⟨_, answered⟩ := discard_yields.mp done
  rw [accepted] at answered
  obtain ⟨rfl, rfl⟩ := Prod.mk.inj (Except.ok.inj answered)
  rcases commitRepeatIteration_effect accepted with ⟨_, replayed⟩ | ⟨whole, inserted⟩
  · cases replayed
  · obtain ⟨rfl, _⟩ := Prod.mk.inj whole
    have inTurn := (allowed entry (by simp)).inTurn record repeats same
    obtain ⟨opened, _⟩ := recordedBefore.follows accepted same inTurn.foremost
    have extended : acceptedIterations reader instanceId (entries ++ [entry]) =
        acceptedIterations reader instanceId entries ++ [record] := by
      rw [acceptedIterations_snoc, repeats]
      simp [same]
    rw [extended] at recordedAfter
    refine recordedAfter.replays (Lib.Iterated.latest_snoc_same rfl rfl) opened.snoc ?_
    intro step definition owner stored defined declared
    obtain ⟨step', row, definition', owner', stored', _, _, _, defined', _, declared', owned, _⟩ :=
      validateRepeatRequest_ok.mp (commitRepeatIteration_follows accepted).1
    have sameSteps : state.stepExecutions = entry.before.stepExecutions := by
      rw [show state.stepExecutions = after'.stepExecutions from congrArg CoreTables.stepExecutions core,
        inserted]
    have sameDefinitions : state.executionDefinitions = entry.before.executionDefinitions := by
      rw [show state.executionDefinitions = after'.executionDefinitions from
        congrArg CoreTables.executionDefinitions core, inserted]
    rw [sameSteps, stored'] at stored
    cases stored
    rw [sameDefinitions, defined'] at defined
    cases defined
    rw [declared'] at declared
    cases declared
    rw [validateRepeatOwner_core core, inserted]
    cases owner with
    | static => exact owned
    | partitioned manager => exact owned

/-- In every state of every run in which an instance keeps its definition and its iterations
are committed in turn, they form one history. -/
theorem repeats_form_one_history (reader : DefinitionReader) (events : List Event)
    (entries : List Entry) (state : MemoryState) (instanceId : JobInstanceId)
    (reached : (Journaled.new.run reader events).Reaches entries state)
    (allowed : ∀ entry ∈ entries, Orderly reader instanceId entry) :
    OneHistory reader instanceId entries state := by
  have follows := reached.follows
  obtain ⟨_, recorded⟩ := follows.recorded allowed
  refine ⟨?_, ?_, ?_, ?_, ?_⟩
  · intro nodeId repeatId lineage accepted own
    rw [← own_iterations] at own
    have counted := recorded.orderly.ordinals (nodePath nodeId lineage) (nodeId, repeatId)
    rw [own] at counted
    exact counted
  · intro nodeId repeatId lineage front last own earlier member
    rw [← own_iterations] at own
    have unfinished := recorded.orderly.final_last own earlier member
    cases decision : earlier.decision with
    | «continue» => rfl
    | complete => simp [iterations, decision] at unfinished
  · intro before entry after record split repeats same
    have extended : acceptedIterations reader instanceId (before ++ [entry]) =
        acceptedIterations reader instanceId before ++ [record] := by
      rw [acceptedIterations_snoc, repeats]
      simp [same]
    have whole : acceptedIterations reader instanceId entries =
        acceptedIterations reader instanceId before ++ record ::
          acceptedIterations reader instanceId after := by
      rw [split, ← List.singleton_append, ← List.append_assoc, acceptedIterations,
        List.filterMap_append, List.filter_append]
      change acceptedIterations reader instanceId (before ++ [entry]) ++ _ = _
      rw [extended, List.append_assoc]
      rfl
    exact (recorded.orderly _ _ _ whole).1
  · rintro before entry record rfl repeats same
    exact Recorded.resubmitted follows allowed repeats same
  · intro nodeId repeatId lineage record latest opened owned
    have own := latest
    rw [← own_iterations] at latest
    have member := List.mem_of_getLast? own
    simp only [List.mem_filter, decide_eq_true_eq] at member
    obtain ⟨_, rfl, rfl, rfl⟩ := member
    exact recorded.replays latest opened owned

def loadNode : NodeId := ⟨"load", Eq.refl true⟩

def pages : RepeatId := ⟨"pages", Eq.refl true⟩

/-- A manifest with one step that repeats. -/
def pagesManifest : Json :=
  .object
    [("nodes", .array
      [.object
        [("id", .string "load"), ("kind", .string "step"),
         ("repeat", .object
          [("id", .string "pages"),
           ("state", .object [("schema", .string "cursor"), ("version", .integer 1)])])]])]

def pagesReader : DefinitionReader :=
  manifestReader (fun _ => some pagesManifest) (fun _ key => key.value) fun _ => 0

/-- An iteration of the repeat, committed by a step of the first instance. -/
def pageOf (step : Nat) (ordinal : RepeatOrdinal) : RepeatCommitRequest :=
  { jobInstanceId := 1, nodeId := loadNode, definitionNodeId := loadNode,
    stepExecutionId := .numbered step, repeatId := pages, lineage := [], ordinal,
    state := ⟨⟨"cursor", Eq.refl true⟩, 1, 0, []⟩, decision := .continue, planFingerprint := 0 }

/-- An attempt commits the first page and fails; the next one commits the second. -/
def pagesRestarted : List Event :=
  unitEvents 1
    [(supplyOf 1, .selectOrCreateJobInstance ⟨⟨"nightly", Eq.refl true⟩, []⟩),
      (supplyOf 1, .createJobExecution 1 nightlyDefinition none),
      (supplyOf 1, .createFlowStepExecution 1
        ⟨"load", Eq.refl true⟩ loadNode 3),
      (supplyOf 1, .commitRepeatIteration (pageOf 1 0)),
      (supplyOf 1, .transitionStepExecution 1 .initial
        (.failed 0 ⟨.userComponent, 0⟩)),
      (supplyOf 1, .transitionJobExecution 1 .initial
        (.failed 0 ⟨.userComponent, 0⟩))] ++
  unitEvents 2
    [(supplyOf 2, .createJobExecution 1 nightlyDefinition none),
      (supplyOf 2, .createFlowStepExecution 2
        ⟨"load", Eq.refl true⟩ loadNode 3),
      (supplyOf 2, .commitRepeatIteration (pageOf 2 1))]

/-- Then the step of the failed attempt commits the second page once more. -/
def pageCommittedTwice : List Event :=
  pagesRestarted ++
  unitEvents 3 [(supplyOf 3, .commitRepeatIteration (pageOf 1 1))]

private theorem committedTwice_evaluated :
    (Journaled.new.run pagesReader pageCommittedTwice).committed.all
        (·.operation.leavesDefinition 1) = true ∧
      (acceptedIterations pagesReader 1
        (Journaled.new.run pagesReader pageCommittedTwice).committed).map (·.ordinal.val) =
          [0, 1, 1] ∧
      (acceptedIterations pagesReader 1
        (Journaled.new.run pagesReader pageCommittedTwice).committed).all (fun record =>
          record.nodeId = loadNode ∧ record.repeatId = pages ∧ record.lineage = []) = true := by
  decide +kernel

/-- The step of a failed attempt repeats an iteration that its successor committed. -/
theorem page_committed_twice :
    ¬ ∀ (reader : DefinitionReader) (events : List Event) (entries : List Entry)
      (state : MemoryState) (instanceId : JobInstanceId),
      (Journaled.new.run reader events).Reaches entries state →
      (∀ entry ∈ entries, entry.operation.leavesDefinition instanceId = true) →
      OneHistory reader instanceId entries state := by
  intro claimed
  have reached := Journaled.reaches_committed pagesReader pageCommittedTwice
  obtain ⟨kept, ordinals, alike⟩ := committedTwice_evaluated
  generalize (Journaled.new.run pagesReader pageCommittedTwice).committed = entries
    at reached kept ordinals alike
  have history := claimed pagesReader pageCommittedTwice entries _ 1
    reached fun entry member => List.all_eq_true.mp kept entry member
  have counted := history.counted loadNode pages []
    (acceptedIterations pagesReader 1 entries)
    (List.filter_eq_self.mpr fun record member => List.all_eq_true.mp alike record member)
  have length : (acceptedIterations pagesReader 1 entries).length = 3 := by
    rw [← List.length_map (·.ordinal.val), ordinals]
    rfl
  rw [ordinals, length] at counted
  revert counted
  decide

private theorem pagesManifest_oneChain : OneChainEach pagesManifest := by
  have only : ∀ repeated ∈ declaredRepeats pagesManifest, ∀ ids, Chain repeated ids →
      ids.length = 1 := by
    intro repeated member ids chain
    have declared : repeated = .object
        [("id", .string "pages"),
         ("state", .object [("schema", .string "cursor"), ("version", .integer 1)])] := by
      have all : declaredRepeats pagesManifest = [.object
          [("id", .string "pages"),
           ("state", .object [("schema", .string "cursor"), ("version", .integer 1)])]] := by
        decide +kernel
      rw [all] at member
      exact List.mem_singleton.mp member
    subst declared
    cases chain with
    | last named => rfl
    | nested named within deeper => simp at within
  intro first member second member' front front' id chain chain'
  have one := only first member _ chain
  have two := only second member' _ chain'
  rw [List.length_append, List.length_singleton] at one two
  rw [List.length_eq_zero_iff.mp (by omega : front.length = 0),
    List.length_eq_zero_iff.mp (by omega : front'.length = 0)]

/-- The last step that is listed commits in turn. -/
private theorem foremost_of_last {tables : CoreTables}
    (nodup : (tables.stepsOf request.jobInstanceId).Nodup)
    (last : (tables.stepsOf request.jobInstanceId).getLast? = some request.stepExecutionId) :
    Foremost tables request := by
  intro before after split later member
  exfalso
  rw [split] at nodup last
  rcases List.eq_nil_or_concat after with empty | ⟨front, final, whole⟩
  · rw [empty] at member
    cases member
  · rw [whole, List.concat_eq_append, ← List.cons_append, ← List.append_assoc,
      List.getLast?_concat] at last
    have again : request.stepExecutionId ∈ after := by
      rw [whole, ← Option.some.inj last]
      simp
    exact (List.nodup_cons.mp (List.nodup_append.mp nodup).2.1).1 again

private theorem pagesRestarted_evaluated :
    (Journaled.new.run pagesReader pagesRestarted).committed.all (fun entry =>
        entry.operation.leavesDefinition 1 &&
          (entry.recorded pagesReader).all fun record =>
            (entry.before.core.stepsOf record.jobInstanceId).Nodup &&
              (entry.before.core.stepsOf record.jobInstanceId).getLast? =
                some record.stepExecutionId) = true := by
  decide +kernel

/-- The restarted step goes on where the failed one ended. -/
theorem restarted_pages_form_one_history :
    OneHistory pagesReader 1
      (Journaled.new.run pagesReader pagesRestarted).committed
      (World.new.run pagesReader pagesRestarted).committed := by
  have evaluated := pagesRestarted_evaluated
  refine repeats_form_one_history pagesReader pagesRestarted _ _ _
    (Journaled.reaches_committed pagesReader pagesRestarted) fun entry member => ?_
  have each := List.all_eq_true.mp evaluated entry member
  rw [Bool.and_eq_true] at each
  refine ⟨each.1, fun record repeats _ => ⟨?_, ?_⟩⟩
  · have held := each.2
    rw [repeats, Option.all_some, Bool.and_eq_true, decide_eq_true_eq, decide_eq_true_eq] at held
    exact foremost_of_last held.1 held.2
  · exact fun step definition _ _ => manifestReader_declaresOnce rfl pagesManifest_oneChain

end Results

end OxideBatch.Repository
