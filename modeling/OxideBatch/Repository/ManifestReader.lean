import OxideBatch.Core.JsonWalk
import OxideBatch.Plan.Manifest
import OxideBatch.Repository.Steps

/-! What the store reads in the manifest of a definition before it accepts a decision or a
repeat iteration. -/

namespace OxideBatch.Repository

open OxideBatch.Core OxideBatch.Plan

/-- `get` and `as_str` of one member. -/
def strMember (key : String) (value : Json) : Option String := (value.get? key).bind Json.asStr

/-- `get` and `as_u64` of one member. -/
def u64Member (key : String) (value : Json) : Option Nat := (value.get? key).bind Json.asU64

/-- `get` and `as_array` of one member. -/
def arrayMember (key : String) (value : Json) : Option (List Json) :=
  (value.get? key).bind Json.asArray

section Decisions

def manifestTargetMatches (value : Json) : FlowTarget → Bool
  | .node id => strMember "node" value = some id.value
  | .terminal kind => strMember "terminal" value = some kind.asStr

/-- The kinds of node whose transitions a decision of this kind records. -/
def FlowTransitionKind.declaredBy (kind : FlowTransitionKind) (declared : Option String) : Bool :=
  match kind with
  | .decider => declared = some "decision"
  | .splitAggregate => declared = some "join"
  | .nestedJobExit => declared = some "nested_job"
  | .stepExit | .completedStepReuse =>
    declared = some "step" || declared = some "partitioned_step" || declared = some "custom_leaf"

def declaresSource (advanced : Bool) (request : FlowDecisionRequest) (node : Json) : Bool :=
  strMember "id" node = some request.sourceNodeId.value &&
    request.kind.declaredBy (strMember "kind" node) &&
    (!advanced || u64Member "decision_sequence" node = some request.sequence.get)

/-- The transition is of the source and its pattern matches the outcome. -/
def transitionObserves (request : FlowDecisionRequest) (transition : Json) : Bool :=
  strMember "source" transition = some request.sourceNodeId.value &&
    ((strMember "pattern" transition).bind (Token.new maxPatternBytes)).any
      fun pattern => ExitPattern.matches pattern request.observedOutcome

def decisionMatchesManifest (manifest : Json) (request : FlowDecisionRequest) : Bool :=
  match manifest.asObject with
  | none => false
  | some _ =>
    let format := u64Member "format" manifest
    if format = some manifestFormatFlow ∨ format = some manifestFormatLocalScale ∨
        format = some manifestFormatAdvancedFlow then
      let advanced : Bool := format = some manifestFormatAdvancedFlow
      if (arrayMember "nodes" manifest).any (·.any (declaresSource advanced request)) then
        let transition :=
          (arrayMember "transitions" manifest).bind (·.find? (transitionObserves request))
        (transition.bind (·.get? "target")).any fun target =>
          manifestTargetMatches target request.target
      else false
    else false

end Decisions

section Repeats

def repeatStateMatches (repeated : Json) (repeatId : RepeatId) (state : ExecutionContext) : Bool :=
  strMember "id" repeated = some repeatId.value &&
    (repeated.get? "state").any fun declared =>
      strMember "schema" declared = some state.schemaId.value &&
        u64Member "version" declared = some state.schemaVersion

/-- The repeat is declared inside the repeats of the lineage. -/
def lineageRepeatMatches (repeatId : RepeatId) (state : ExecutionContext) :
    RepeatLineage → Json → Bool
  | [], repeated => repeatStateMatches repeated repeatId state
  | (ancestorId, _) :: lineage, repeated =>
    strMember "id" repeated = some ancestorId.value &&
      (repeated.get? "nested").any (lineageRepeatMatches repeatId state lineage)

def stepMatches (request : RepeatCommitRequest) (step : Json) : Bool :=
  strMember "kind" step = some "step" && strMember "id" step = some request.definitionNodeId.value &&
    (step.get? "repeat").any (lineageRepeatMatches request.repeatId request.state request.lineage)

/-- What the object itself declares; `none` leaves it to its members. -/
def declaredOwner (request : RepeatCommitRequest) (object : Json) :
    Option (Option RepeatManifestOwner) :=
  let static := if stepMatches request object then some (some .static) else none
  if strMember "kind" object = some "partitioned_step" then
    match strMember "id" object with
    | none => some none
    | some managerId =>
      if (object.get? "worker").any (stepMatches request) then
        some ((Token.new 128 managerId).map .partitioned)
      else static
  else static

mutual

/-- `visit`, the first owner in the document. -/
def visitOwner (request : RepeatCommitRequest) : Json → Option RepeatManifestOwner
  | .object members =>
    match declaredOwner request (.object members) with
    | some owner => owner
    | none => visitMembers request members
  | .array values => visitValues request values
  | _ => none

def visitValues (request : RepeatCommitRequest) : List Json → Option RepeatManifestOwner
  | [] => none
  | value :: values => (visitOwner request value).or (visitValues request values)

def visitMembers (request : RepeatCommitRequest) :
    List (String × Json) → Option RepeatManifestOwner
  | [] => none
  | (_, value) :: members => (visitOwner request value).or (visitMembers request members)

end

mutual

/-- The repeats that the steps of a document declare. -/
def declaredRepeats : Json → List Json
  | .object members =>
    (if strMember "kind" (.object members) = some "step" then
      ((Json.object members).get? "repeat").toList else []) ++ repeatsOfMembers members
  | .array values => repeatsOfValues values
  | _ => []

def repeatsOfValues : List Json → List Json
  | [] => []
  | value :: values => declaredRepeats value ++ repeatsOfValues values

def repeatsOfMembers : List (String × Json) → List Json
  | [] => []
  | (_, value) :: members => declaredRepeats value ++ repeatsOfMembers members

end

/-- The identifiers of repeats, each nested in the one before. -/
inductive Chain : Json → List String → Prop where
  | last {repeated : Json} {id : String} (named : strMember "id" repeated = some id) :
      Chain repeated [id]
  | nested {repeated inner : Json} {id : String} {ids : List String}
      (named : strMember "id" repeated = some id) (within : repeated.get? "nested" = some inner)
      (deeper : Chain inner ids) : Chain repeated (id :: ids)

/-- Every repeat stands behind one chain of enclosing repeats. -/
def OneChainEach (manifest : Json) : Prop :=
  ∀ first ∈ declaredRepeats manifest, ∀ second ∈ declaredRepeats manifest,
    ∀ front front' id, Chain first (front ++ [id]) → Chain second (front' ++ [id]) → front = front'

private theorem lineageRepeatMatches_chain {repeatId : RepeatId} {state : ExecutionContext}
    {lineage : RepeatLineage} {repeated : Json}
    (declares : lineageRepeatMatches repeatId state lineage repeated = true) :
    Chain repeated (lineage.map (·.1.value) ++ [repeatId.value]) := by
  induction lineage generalizing repeated with
  | nil =>
    simp only [lineageRepeatMatches, repeatStateMatches, Bool.and_eq_true,
      decide_eq_true_eq] at declares
    exact .last declares.1
  | cons ancestor lineage ih =>
    simp only [lineageRepeatMatches, Bool.and_eq_true, decide_eq_true_eq,
      Option.any_eq_true] at declares
    obtain ⟨named, inner, within, deeper⟩ := declares
    exact .nested named within (ih deeper)

private theorem stepMatches_chain {request : RepeatCommitRequest} {step : Json}
    (declares : stepMatches request step = true) :
    ∃ repeated ∈ declaredRepeats step,
      Chain repeated (request.lineage.map (·.1.value) ++ [request.repeatId.value]) := by
  simp only [stepMatches, Bool.and_eq_true, decide_eq_true_eq, Option.any_eq_true] at declares
  obtain ⟨⟨kind, _⟩, repeated, found, deeper⟩ := declares
  refine ⟨repeated, ?_, lineageRepeatMatches_chain deeper⟩
  cases step with
  | object members =>
    unfold declaredRepeats
    rw [if_pos kind, found]
    simp
  | null | bool _ | integer _ | float _ | string _ | array _ => cases found

private theorem repeatsOfMembers_member {key : String} {value repeated : Json}
    {members : List (String × Json)} (found : Json.member? key members = some value)
    (declared : repeated ∈ declaredRepeats value) : repeated ∈ repeatsOfMembers members := by
  induction members with
  | nil => cases found
  | cons entry members ih =>
    obtain ⟨other, held⟩ := entry
    rw [repeatsOfMembers, List.mem_append]
    rw [Json.member?_cons] at found
    split at found
    · rw [Option.some.inj found]
      exact .inl declared
    · exact .inr (ih found)

/-- What an object declares for a request, it declares among its repeats. -/
private theorem declaredOwner_chain {request : RepeatCommitRequest} {members : List (String × Json)}
    {owner : RepeatManifestOwner}
    (declares : declaredOwner request (.object members) = some (some owner)) :
    ∃ repeated ∈ declaredRepeats (.object members),
      Chain repeated (request.lineage.map (·.1.value) ++ [request.repeatId.value]) := by
  have here : (if stepMatches request (.object members) then some (some RepeatManifestOwner.static)
      else none) = some (some owner) → _ := fun matched => by
    split at matched
    · rename_i declared
      exact stepMatches_chain declared
    · cases matched
  unfold declaredOwner at declares
  dsimp only at declares
  split at declares
  · split at declares
    · cases declares
    · split at declares
      · rename_i worker
        obtain ⟨step, found, matched⟩ := (Option.any_eq_true _ _).mp worker
        obtain ⟨repeated, member, chain⟩ := stepMatches_chain matched
        refine ⟨repeated, ?_, chain⟩
        rw [declaredRepeats]
        exact List.mem_append_right _ (repeatsOfMembers_member found member)
      · exact here declares
  · exact here declares

mutual

theorem visitOwner_chain {request : RepeatCommitRequest} {owner : RepeatManifestOwner} :
    ∀ document : Json, visitOwner request document = some owner →
      ∃ repeated ∈ declaredRepeats document,
        Chain repeated (request.lineage.map (·.1.value) ++ [request.repeatId.value])
  | .object members, found => by
    unfold visitOwner at found
    split at found
    · rename_i declared
      subst found
      exact declaredOwner_chain declared
    · obtain ⟨repeated, member, chain⟩ := visitMembers_chain members found
      exact ⟨repeated, by rw [declaredRepeats]; exact List.mem_append_right _ member, chain⟩
  | .array values, found => by
    unfold visitOwner at found
    obtain ⟨repeated, member, chain⟩ := visitValues_chain values found
    exact ⟨repeated, by rw [declaredRepeats]; exact member, chain⟩
  | .null, found | .bool _, found | .integer _, found | .float _, found | .string _, found => by
    simp [visitOwner] at found

private theorem visitValues_chain {request : RepeatCommitRequest} {owner : RepeatManifestOwner} :
    ∀ values : List Json, visitValues request values = some owner →
      ∃ repeated ∈ repeatsOfValues values,
        Chain repeated (request.lineage.map (·.1.value) ++ [request.repeatId.value])
  | [], found => by simp [visitValues] at found
  | value :: values, found => by
    rw [visitValues, Option.or_eq_some_iff] at found
    rw [repeatsOfValues]
    rcases found with here | ⟨_, later⟩
    · obtain ⟨repeated, member, chain⟩ := visitOwner_chain value here
      exact ⟨repeated, List.mem_append_left _ member, chain⟩
    · obtain ⟨repeated, member, chain⟩ := visitValues_chain values later
      exact ⟨repeated, List.mem_append_right _ member, chain⟩

private theorem visitMembers_chain {request : RepeatCommitRequest} {owner : RepeatManifestOwner} :
    ∀ members : List (String × Json), visitMembers request members = some owner →
      ∃ repeated ∈ repeatsOfMembers members,
        Chain repeated (request.lineage.map (·.1.value) ++ [request.repeatId.value])
  | [], found => by simp [visitMembers] at found
  | (key, value) :: members, found => by
    rw [visitMembers, Option.or_eq_some_iff] at found
    rw [repeatsOfMembers]
    rcases found with here | ⟨_, later⟩
    · obtain ⟨repeated, member, chain⟩ := visitOwner_chain value here
      exact ⟨repeated, List.mem_append_left _ member, chain⟩
    · obtain ⟨repeated, member, chain⟩ := visitMembers_chain members later
      exact ⟨repeated, List.mem_append_right _ member, chain⟩

end

def repeatRequestManifestOwner (manifest : Json) (request : RepeatCommitRequest) :
    Option RepeatManifestOwner := visitOwner request manifest

end Repeats

/-- The reader over a parser of manifests; tokens and digests are hashes. -/
def manifestReader (parse : List UInt8 → Option Json)
    (partitionWorkerToken : NodeId → PartitionKey → String)
    (flowInputDigest : JobParameters → Digest) : DefinitionReader where
  readable definition := (parse definition.canonicalManifest).isSome
  advanced definition := (parse definition.canonicalManifest).any
    fun manifest => u64Member "format" manifest = some manifestFormatAdvancedFlow
  decisionMatches definition request := (parse definition.canonicalManifest).any
    fun manifest => decisionMatchesManifest manifest request
  repeatOwner definition request := (parse definition.canonicalManifest).bind
    fun manifest => repeatRequestManifestOwner manifest request
  partitionWorkerToken := partitionWorkerToken
  flowInputDigest := flowInputDigest

end OxideBatch.Repository
