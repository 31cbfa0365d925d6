import OxideBatch.Plan.Emitted

/-! `DefinitionManifest::read`: the validated view of canonical manifest bytes. -/

namespace OxideBatch.Plan

open OxideBatch.Core
open Json (member? hasMember)
open Std (ExtTreeSet)

inductive ManifestError where
  | tooLarge (maxBytes : Nat)
  | malformedJson
  | notAnObject
  | nonCanonicalEncoding
  | floatValue
  | missingFormat
  | unsupportedFormat (format supported : Nat)
  | malformedGraph
  | graphOutOfBounds (maxNodes maxTransitions : Nat)
  | invalidJobName
  deriving DecidableEq, Repr

structure DefinitionManifest where
  format : Nat
  digest : Digest
  jobName : Option JobName
  nodeCount : Option Nat
  transitionCount : Option Nat
  deriving DecidableEq

/-- The members of an object in the document. -/
abbrev Members := List (String × Json)

/-- `ok_or(ManifestError::MalformedGraph)`. -/
def readable {α : Type} : Option α → Except ManifestError α
  | some value => .ok value
  | none => .error .malformedGraph

/-- A condition without which the graph is malformed. -/
def require (condition : Bool) : Except ManifestError Unit :=
  if condition then .ok () else .error .malformedGraph

/-- A token of the definition, valid as its constructor demands. -/
def requireToken (key : String) (members : Members) : Except ManifestError Unit := do
  let value ← readable ((member? key members).bind Json.asStr)
  require (validText 128 value)

/-- An object that has the `required` keys and no others. -/
def exactly (required : List String) (value : Json) : Except ManifestError Members := do
  let members ← readable value.asObject
  require (members.length = required.length && members.all fun member => required.contains member.1)
  pure members

/-- `SUPPORTED_MANIFEST_FORMAT`. -/
def supportedManifestFormat : Nat := 4

def checkManifestFormat (format : Nat) : Except ManifestError Unit :=
  if format = 0 then .error .missingFormat
  else if supportedManifestFormat < format then
    .error (.unsupportedFormat format supportedManifestFormat)
  else .ok ()

def validateParameterIncrementerManifest (members : Members) : Except ManifestError Unit :=
  match member? "parameter_incrementer" members with
  | none => .ok ()
  | some value => do
    let object ← exactly ["kind", "revision"] value
    requireToken "kind" object
    requireToken "revision" object

/-- A restart policy stands at the root or in start controls. -/
def restartPolicyPlaced (root : Bool) (members : Members) : Bool :=
  match member? "restart_policy" members with
  | none => true
  | some policy =>
    (root || (hasMember "start_limit" members && hasMember "allow_start_if_complete" members)) &&
      policy.asStr = some "not_restartable"

mutual

def visitRestartPolicies (root : Bool) : Json → Except ManifestError Unit
  | .object members => do
    require (restartPolicyPlaced root members)
    visitMembers members
  | .array values => visitValues values
  | _ => .ok ()

def visitMembers : Members → Except ManifestError Unit
  | [] => .ok ()
  | (_, value) :: members => do
    visitRestartPolicies false value
    visitMembers members

def visitValues : List Json → Except ManifestError Unit
  | [] => .ok ()
  | value :: values => do
    visitRestartPolicies false value
    visitValues values

end

def validateRestartPolicyManifest (document : Json) : Except ManifestError Unit :=
  visitRestartPolicies true document

def outOfBounds : ManifestError := .graphOutOfBounds maxNodes maxTransitions

def ensureGraphBounds (nodes transitions : Nat) : Except ManifestError Unit :=
  if maxNodes < nodes ∨ maxTransitions < transitions then .error outOfBounds else .ok ()

/-- `usize::checked_add`. -/
def checkedAdd (left right : Nat) : Except ManifestError Nat :=
  if left + right < 2 ^ 64 then .ok (left + right) else .error outOfBounds

def arrayLen (value : Option Json) : Except ManifestError Nat :=
  readable ((value.bind Json.asArray).map List.length)

/-- Whether a member is present and of the asked kind. -/
def hasObject (key : String) (members : Members) : Bool :=
  ((member? key members).bind Json.asObject).isSome

def hasArray (key : String) (members : Members) : Bool :=
  ((member? key members).bind Json.asArray).isSome

def hasStr (key : String) (members : Members) : Bool :=
  ((member? key members).bind Json.asStr).isSome

def kindOf (members : Members) : Option String := (member? "kind" members).bind Json.asStr

def validateNestedJobManifest (object : Members) : Except ManifestError Unit :=
  require (hasObject "child" object && hasArray "parameters" object &&
    hasStr "mapping_revision" object)

/-- A linear branch holds its steps, a flow branch names the nodes of its scope. -/
def countBranch (nodes : Nat) (branch : Json) : Except ManifestError Nat := do
  let branch ← readable branch.asObject
  match kindOf branch with
  | some "linear" => do
    let steps ← arrayLen (member? "steps" branch)
    checkedAdd nodes steps
  | some "flow" => do
    require (hasArray "members" branch && hasStr "entry" branch)
    pure nodes
  | _ => .error .malformedGraph

/-- The kinds of the advanced format; `custom_leaf` is not among them. -/
def countKind (object : Members) (nodes transitions : Nat) : Except ManifestError (Nat × Nat) :=
  match kindOf object with
  | some "step" => pure (nodes, transitions)
  | some "decision" => pure (nodes, transitions)
  | some "join" => pure (nodes, transitions)
  | some "nested_job" => do
    validateNestedJobManifest object
    pure (nodes, transitions)
  | some "partitioned_step" => do
    require (hasObject "worker" object)
    let nodes ← checkedAdd nodes 1
    pure (nodes, transitions)
  | some "split" => do
    let branches ← readable ((member? "branches" object).bind Json.asArray)
    let nodes ← checkedAdd nodes branches.length
    let nodes ← branches.foldlM countBranch nodes
    pure (nodes, transitions)
  | some "nested_flow" => do
    let exits ← arrayLen (member? "exits" object)
    require (hasArray "members" object && hasStr "entry" object)
    let transitions ← checkedAdd transitions exits
    pure (nodes, transitions)
  | _ => .error .malformedGraph

/-- One round of `advanced_graph_counts`. -/
def countNode (counts : Nat × Nat) (node : Json) : Except ManifestError (Nat × Nat) := do
  let object ← readable node.asObject
  let counts ← countKind object counts.1 counts.2
  ensureGraphBounds counts.1 counts.2
  pure counts

def advancedGraphCounts (members : Members) : Except ManifestError (Nat × Nat) := do
  let nodes ← readable ((member? "nodes" members).bind Json.asArray)
  let transitions ← arrayLen (member? "transitions" members)
  nodes.foldlM countNode (nodes.length, transitions)

/-- The scoped components seen so far, by scope. -/
def countScoped (counts : Nat × Nat) (component : Json) : Except ManifestError (Nat × Nat) := do
  let scope ← readable ((component.asObject.bind (member? "scope")).bind Json.asStr)
  match scope with
  | "job" => do
    require (counts.1 + 1 ≤ maxScopedComponents)
    pure (counts.1 + 1, counts.2)
  | "step" => do
    require (counts.2 + 1 ≤ maxScopedComponents)
    pure (counts.1, counts.2 + 1)
  | _ => .error .malformedGraph

def validateScopedComponents (members : Members) : Except ManifestError Unit :=
  match member? "scoped_components" members with
  | none => .ok ()
  | some value => do
    let components ← readable value.asArray
    require (!components.isEmpty)
    let _ ← components.foldlM countScoped (0, 0)
    pure ()

section Repeat

/-- Inserts an identity that has not been seen yet. -/
def insertUnique (id : String) (ids : ExtTreeSet String) :
    Except ManifestError (ExtTreeSet String) :=
  if ids.contains id then .error .malformedGraph else .ok (ids.insert id)

def validateRepeatPolicy (value : Json) : Except ManifestError Unit := do
  let object ← exactly ["configuration", "kind", "revision"] value
  requireToken "configuration" object
  requireToken "kind" object
  requireToken "revision" object

def validateRepeatInterceptor (ids : ExtTreeSet String) (value : Json) :
    Except ManifestError (ExtTreeSet String) := do
  let object ← exactly ["id", "kind", "revision"] value
  requireToken "id" object
  let id ← readable ((member? "id" object).bind Json.asStr)
  let ids ← insertUnique id ids
  requireToken "kind" object
  requireToken "revision" object
  pure ids

def validateRepeatState (value : Json) : Except ManifestError Unit := do
  let object ← exactly ["schema", "version"] value
  requireToken "schema" object
  let version ← readable ((member? "version" object).bind Json.asU64)
  require (0 < version && version < 2 ^ 32)

/-- `validate_repeat_definition` with the depth that is left. -/
def validateRepeatDefinition : Nat → ExtTreeSet String → Json →
    Except ManifestError (ExtTreeSet String)
  | 0, _, _ => .error .malformedGraph
  | depth + 1, ids, value => do
    let object ← readable value.asObject
    require (object.all fun member =>
      ["id", "interceptors", "nested", "policy", "state"].contains member.1)
    requireToken "id" object
    let id ← readable ((member? "id" object).bind Json.asStr)
    let ids ← insertUnique id ids
    let policy ← readable (member? "policy" object)
    validateRepeatPolicy policy
    let state ← readable (member? "state" object)
    validateRepeatState state
    let interceptors ← readable ((member? "interceptors" object).bind Json.asArray)
    require (interceptors.length ≤ maxRepeatInterceptors)
    let _ ← interceptors.foldlM validateRepeatInterceptor ∅
    match member? "nested" object with
    | none => pure ids
    | some nested => validateRepeatDefinition depth ids nested

mutual

def validateNodeRepeat (ids : ExtTreeSet String) : Json → Except ManifestError (ExtTreeSet String)
  | .object members =>
    if kindOf members ≠ some "step" ∧ hasMember "repeat" members then .error .malformedGraph
    else
      match kindOf members with
      | some "step" =>
        match member? "repeat" members with
        | none => .ok ids
        | some definition => validateRepeatDefinition maxRepeatNestingDepth ids definition
      | some "partitioned_step" => validateWorkerRepeat ids members
      | some "split" => validateBranchesRepeat ids members
      | _ => .ok ids
  | _ => .error .malformedGraph

/-- The first member `worker`. -/
def validateWorkerRepeat (ids : ExtTreeSet String) :
    Members → Except ManifestError (ExtTreeSet String)
  | [] => .error .malformedGraph
  | (key, value) :: members =>
    if key = "worker" then validateNodeRepeat ids value else validateWorkerRepeat ids members

/-- The first member `branches`. -/
def validateBranchesRepeat (ids : ExtTreeSet String) :
    Members → Except ManifestError (ExtTreeSet String)
  | [] => .error .malformedGraph
  | (key, value) :: members =>
    if key = "branches" then
      match value with
      | .array branches => validateEachBranch ids branches
      | _ => .error .malformedGraph
    else validateBranchesRepeat ids members

def validateEachBranch (ids : ExtTreeSet String) :
    List Json → Except ManifestError (ExtTreeSet String)
  | [] => .ok ids
  | .object branch :: branches => do
    let ids ← if kindOf branch = some "linear" then validateStepsRepeat ids branch else .ok ids
    validateEachBranch ids branches
  | _ :: _ => .error .malformedGraph

/-- The first member `steps`. -/
def validateStepsRepeat (ids : ExtTreeSet String) :
    Members → Except ManifestError (ExtTreeSet String)
  | [] => .error .malformedGraph
  | (key, value) :: members =>
    if key = "steps" then
      match value with
      | .array steps => validateEachStep ids steps
      | _ => .error .malformedGraph
    else validateStepsRepeat ids members

def validateEachStep (ids : ExtTreeSet String) :
    List Json → Except ManifestError (ExtTreeSet String)
  | [] => .ok ids
  | step :: steps => do
    let ids ← validateNodeRepeat ids step
    validateEachStep ids steps

end

def validateRepeatManifests (members : Members) : Except ManifestError Unit := do
  let nodes ← readable ((member? "nodes" members).bind Json.asArray)
  let _ ← nodes.foldlM validateNodeRepeat ∅
  pure ()

end Repeat

/-- The checks of a graph and its counts, by format. -/
def readGraph (format : Nat) (document : Json) (members : Members) :
    Except ManifestError (Option (Nat × Nat)) :=
  if format = manifestFormatFlow ∨ format = manifestFormatLocalScale then do
    let nodesValue ← readable (member? "nodes" members)
    require (!nodesValue.containsObjectKey "repeat")
    let nodes ← arrayLen (some nodesValue)
    let transitions ← arrayLen (member? "transitions" members)
    ensureGraphBounds nodes transitions
    pure (some (nodes, transitions))
  else if format = manifestFormatAdvancedFlow then do
    validateParameterIncrementerManifest members
    validateRestartPolicyManifest document
    let counts ← advancedGraphCounts members
    ensureGraphBounds counts.1 counts.2
    validateScopedComponents members
    validateRepeatManifests members
    pure (some counts)
  else pure none

/-- The job name bound into the manifest, when present. -/
def readJobName (members : Members) : Except ManifestError (Option JobName) :=
  match (member? "job" members).bind Json.asStr with
  | none => .ok none
  | some name =>
    match Token.new 128 name with
    | some name => .ok (some name)
    | none => .error .invalidJobName

/-- The declared format as a `u16`. -/
def readFormat (members : Members) : Except ManifestError Nat :=
  match ((member? "format" members).bind Json.asU64).filter (· < 2 ^ 16) with
  | some format => .ok format
  | none => .error .missingFormat

/-- `DefinitionManifest::read`. -/
def DefinitionManifest.read (serde : Serde) (bytes : List UInt8) :
    Except ManifestError DefinitionManifest :=
  if maxManifestBytes < bytes.length then .error (.tooLarge maxManifestBytes)
  else
    match serde.fromSlice bytes with
    | none => .error .malformedJson
    | some document =>
      match document.asObject with
      | none => .error .notAnObject
      | some members =>
        if document.containsFloat then .error .floatValue
        else
          match serde.toVec document with
          | none => .error .malformedJson
          | some reencoded =>
            if reencoded ≠ bytes then .error .nonCanonicalEncoding
            else do
              let format ← readFormat members
              checkManifestFormat format
              require (format = manifestFormatAdvancedFlow ||
                !(hasMember "parameter_incrementer" members ||
                  document.containsObjectKey "restart_policy"))
              let jobName ← readJobName members
              let counts ← readGraph format document members
              pure ⟨format, serde.sha256 bytes, jobName, counts.map (·.1), counts.map (·.2)⟩

end OxideBatch.Plan
