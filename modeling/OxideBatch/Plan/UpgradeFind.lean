import OxideBatch.Plan.UpgradeWalk

/-! `find_definition_node` on the manifests of flat flows: the objects it passes on its
way, which of them look like nodes, and the durable-state contracts it reads from the one
it stops at. -/

namespace OxideBatch.Core.Json

mutual

/-- The objects of a document in the order of a depth-first search. -/
def objects : Json → List (List (String × Json))
  | .object members => members :: memberObjects members
  | .array values => valueObjects values
  | _ => []

def valueObjects : List Json → List (List (String × Json))
  | [] => []
  | value :: values => value.objects ++ valueObjects values

def memberObjects : List (String × Json) → List (List (String × Json))
  | [] => []
  | (_, value) :: members => value.objects ++ memberObjects members

end

@[simp] theorem objects_null : Json.null.objects = [] := rfl

@[simp] theorem objects_bool (value : Bool) : (Json.bool value).objects = [] := rfl

@[simp] theorem objects_integer (value : Int) : (Json.integer value).objects = [] := rfl

@[simp] theorem objects_string (value : String) : (Json.string value).objects = [] := rfl

@[simp] theorem objects_object (members : List (String × Json)) :
    (Json.object members).objects = members :: memberObjects members := rfl

@[simp] theorem objects_array (values : List Json) :
    (Json.array values).objects = values.flatMap objects := by
  have general : valueObjects values = values.flatMap objects := by
    induction values with
    | nil => simp [valueObjects]
    | cons value values ih => simp [valueObjects, ih]
  simpa only [objects] using general

@[simp] theorem memberObjects_nil : memberObjects [] = [] := rfl

@[simp] theorem memberObjects_cons (key : String) (value : Json) (members : List (String × Json)) :
    memberObjects ((key, value) :: members) = value.objects ++ memberObjects members := rfl

theorem insertMember_before {key other : String} (before : key < other) (value held : Json)
    (members : List (String × Json)) :
    insertMember key value ((other, held) :: members) = (key, value) :: (other, held) :: members :=
  if_pos before

theorem insertMember_after {key other : String} (after : ¬ key < other) (different : key ≠ other)
    (value held : Json) (members : List (String × Json)) :
    insertMember key value ((other, held) :: members) =
      (other, held) :: insertMember key value members := by
  rw [insertMember, if_neg after, if_neg different]

/-- A new member without objects adds none. -/
theorem memberObjects_insertMember {key : String} {value : Json} {members : List (String × Json)}
    (bare : value.objects = []) (absent : member? key members = none) :
    memberObjects (insertMember key value members) = memberObjects members := by
  induction members with
  | nil => simp [insertMember, bare]
  | cons head members ih =>
    obtain ⟨other, held⟩ := head
    rw [member?_cons] at absent
    have different : other ≠ key := by
      rintro rfl
      simp at absent
    rw [if_neg different] at absent
    unfold insertMember
    split
    · simp [bare]
    · rw [if_neg (Ne.symm different)]
      simp [ih absent]

end OxideBatch.Core.Json

namespace OxideBatch.Plan

open OxideBatch.Core Program
open Json (member? hasMember insertMember objects memberObjects)
open Std (ExtTreeMap ExtTreeSet)

section Search

mutual

theorem findDefinitionNode_eq (id : NodeId) : ∀ document : Json,
    findDefinitionNode id document = document.objects.find? (isDefinitionNode id)
  | .object members => by
    rw [findDefinitionNode, Json.objects_object, List.find?_cons, findInMembers_eq id members]
    cases isDefinitionNode id members <;> rfl
  | .array values => by
    rw [findDefinitionNode, Json.objects, findInValues_eq id values]
  | .null | .bool _ | .integer _ | .float _ | .string _ => by
    simp [findDefinitionNode, Json.objects]

private theorem findInMembers_eq (id : NodeId) : ∀ members : List (String × Json),
    findInMembers id members = (memberObjects members).find? (isDefinitionNode id)
  | [] => by simp [findInMembers]
  | (key, value) :: members => by
    rw [findInMembers, Json.memberObjects_cons, List.find?_append, findDefinitionNode_eq id value,
      findInMembers_eq id members]
    cases value.objects.find? (isDefinitionNode id) <;> rfl

private theorem findInValues_eq (id : NodeId) : ∀ values : List Json,
    findInValues id values = (Json.valueObjects values).find? (isDefinitionNode id)
  | [] => by simp [findInValues, Json.valueObjects]
  | value :: values => by
    rw [findInValues, Json.valueObjects, List.find?_append, findDefinitionNode_eq id value,
      findInValues_eq id values]
    cases value.objects.find? (isDefinitionNode id) <;> rfl

end

end Search

section Contracts

/-- The contracts that a chunk really declares. -/
def StepComponents.contracts : StepComponents → List DefinitionDurableStateContract
  | .tasklet _ => []
  | .chunk _ revisions =>
    [⟨.checkpoint, none, revisions.restart.checkpointSchema,
        revisions.restart.checkpointSchemaVersion⟩,
      ⟨.executionContext, none, revisions.restart.contextSchema,
        revisions.restart.contextSchemaVersion⟩]

/-- The contract of one repeat level. -/
def RepeatLevel.contract (level : RepeatLevel) : DefinitionDurableStateContract :=
  ⟨.repeat, some level.id.value, level.state.schema, level.state.version⟩

def RepeatDefinition.levels (definition : RepeatDefinition) : List RepeatLevel :=
  definition.outer :: definition.nested

def StepNode.repeatLevels (step : StepNode) : List RepeatLevel :=
  (step.repeatDefinition.map (·.levels)).getD []

/-- The durable state a step declares: its chunk's, then that of each repeat level. -/
def StepNode.contracts (step : StepNode) : List DefinitionDurableStateContract :=
  step.components.contracts ++ step.repeatLevels.map (·.contract)

/-- The durable state a node declares for itself. -/
def FlowNode.contracts : FlowNode FlowGraph → List DefinitionDurableStateContract
  | .step node => node.contracts
  | .customLeaf node => [⟨.executionContext, none, node.stateSchemaId, node.stateSchemaVersion⟩]
  | _ => []

def StepNode.interceptors (step : StepNode) : List RepeatInterceptorDefinition :=
  step.repeatLevels.flatMap (·.interceptors)

/-- An object of a manifest that has an identifier and a kind. -/
inductive Standing where
  | declared (node : FlowNode FlowGraph)
  | embedded (step : StepNode)
  | intercepting (interceptor : RepeatInterceptorDefinition)

def Standing.id : Standing → Token 128
  | .declared node => node.id
  | .embedded step => step.id
  | .intercepting interceptor => interceptor.id

def Standing.kind : Standing → String
  | .declared node => node.kindName
  | .embedded _ => "step"
  | .intercepting interceptor => interceptor.kind.value

/-- The kinds whose objects must hold a state declaration. -/
def stateKinds : List String := ["step", "custom_leaf"]

/-- What is read as the contracts of the object. -/
def Standing.contracts : Standing → UpgradeResult (List DefinitionDurableStateContract)
  | .declared node => .ok node.contracts
  | .embedded step => .ok step.contracts
  | .intercepting interceptor =>
    if interceptor.kind.value ∈ stateKinds then .error .manifestEncoding else .ok []

/-- Whether the object is taken for the node with an identifier. -/
def Standing.answers (id : NodeId) (standing : Standing) : Bool :=
  nodeKinds.contains standing.kind && standing.id = id

def StepNode.standing (step : StepNode) : List Standing :=
  .embedded step :: step.interceptors.map .intercepting

/-- The objects with an identifier and a kind in a node, in their order. -/
def FlowNode.standing : FlowNode FlowGraph → List Standing
  | .step node => .declared (.step node) :: node.interceptors.map .intercepting
  | node => .declared node :: node.embeddedSteps.flatMap (·.standing)

end Contracts

section Reading

@[simp] theorem orMalformed_some (value : α) : orMalformed (some value) = .ok value := rfl

@[simp] theorem accept_bind (value : α) (next : α → UpgradeResult β) :
    (Except.ok value >>= next) = next value := rfl

private theorem readVersion_get (version : StateSchemaVersion) :
    ((number version.get).asU64).bind readVersion = some version := by
  have within := version.within
  have read : (number version.get).asU64 = some version.get := by
    simp only [number, Json.asU64]
    rw [if_pos (by omega), Int.toNat_natCast]
  rw [read]
  simp only [Option.bind_some, readVersion]
  rw [dif_pos version.positive, dif_pos within]

private theorem schemaContract_ok {members : List (String × Json)} {schemaKey : String}
    {schema : StateSchemaId} {version : StateSchemaVersion} (kind : DefinitionStateKind)
    (stateId : Option String) (schemaMember : memberStr schemaKey members = some schema.value)
    (versionMember : member? "version" members = some (number version.get)) :
    schemaContract kind stateId (.object members) schemaKey = .ok ⟨kind, stateId, schema, version⟩ := by
  have token : Token.new 128 schema.value = some schema := by simp [Token.new, schema.valid]
  have read : ((member? "version" members).bind Json.asU64).bind readVersion = some version := by
    rw [versionMember, Option.bind_some]
    exact readVersion_get version
  have isObject : (Json.object members).asObject = some members := rfl
  unfold schemaContract
  rw [isObject, orMalformed_some, accept_bind, schemaMember, orMalformed_some, accept_bind, read,
    orMalformed_some, accept_bind, token, orMalformed_some, accept_bind]
  rfl

/-- The contract of a schema object. -/
theorem schemaContract_object (kind : DefinitionStateKind) (stateId : Option String)
    (schema : StateSchemaId) (version : StateSchemaVersion) (key : String) (other : key ≠ "version") :
    schemaContract kind stateId (.object [(key, text schema), ("version", number version.get)]) key =
      .ok ⟨kind, stateId, schema, version⟩ := by
  apply schemaContract_ok
  · simp [memberStr, text, Json.asStr]
  · simp [other]

theorem memberStr_text {maxBytes : Nat} {members : List (String × Json)} {key : String}
    {value : Token maxBytes}
    (present : member? key members = some (text value)) : memberStr key members = some value.value := by
  unfold memberStr
  rw [present]
  rfl

/-- The declaration of a step's components yields what the components declare. -/
private theorem stepContracts_ok {members : List (String × Json)} (components : StepComponents)
    (name : StepName)
    (present : member? "step" members = some (.object
      [("declaration", components.manifestValue), ("kind", .string components.kindName),
        ("name", text name)])) :
    stepContracts members = .ok components.contracts := by
  unfold stepContracts
  simp only [present, Option.bind_some, Json.asObject, orMalformed_some, accept_bind]
  cases components with
  | tasklet revision => 
    simp [memberStr, StepComponents.kindName, Json.asStr, StepComponents.contracts]
  | chunk size revisions =>
    have declaration : (StepComponents.chunk size revisions).manifestValue.asObject ≠ none := by
      unfold StepComponents.manifestValue
      exact Json.asObject_withMember (Json.asObject_withMember (asObject_chunkDeclaration _) _ _) _ _
    obtain ⟨declared, shown⟩ := object_of_asObject declaration
    have lookup : ∀ key, key ≠ "in_flight_policy" → key ≠ "size" → key ≠ "transaction_boundary" →
        member? key declared = (chunkDeclarationManifest revisions).get? key := by
      intro key _ size boundary
      rw [← Json.get?_object, ← shown, StepComponents.manifestValue,
        Json.get?_withMember (Json.asObject_withMember (asObject_chunkDeclaration _) _ _),
        if_neg (Ne.symm boundary), Json.get?_withMember (asObject_chunkDeclaration _),
        if_neg (Ne.symm size)]
    have checkpoint : member? "checkpoint" declared = some (.object
        [("schema", text revisions.restart.checkpointSchema),
         ("version", number revisions.restart.checkpointSchemaVersion.get)]) := by
      rw [lookup _ (by decide) (by decide) (by decide), get?_chunkDeclaration _ (by decide)]
      simp
    have context : member? "context" declared = some (.object
        [("schema", text revisions.restart.contextSchema),
         ("version", number revisions.restart.contextSchemaVersion.get)]) := by
      rw [lookup _ (by decide) (by decide) (by decide), get?_chunkDeclaration _ (by decide)]
      simp
    have chunk : chunkContracts declared = .ok (StepComponents.chunk size revisions).contracts := by
      unfold chunkContracts
      rw [checkpoint, context, orMalformed_some, accept_bind, orMalformed_some]
      rw [schemaContract_object _ _ _ _ "schema" (by decide), accept_bind, accept_bind,
        schemaContract_object _ _ _ _ "schema" (by decide), accept_bind]
      rfl
    rw [if_pos (by simp [memberStr, StepComponents.kindName, Json.asStr]), shown]
    simp only [Json.member?_cons, if_true, Option.bind_some, Json.asObject, orMalformed_some, accept_bind]
    exact chunk

private theorem collectNestedRepeat_eq (members : List (String × Json)) :
    collectNestedRepeat members =
      match member? "nested" members with
      | some inner => collectRepeatStateContracts inner
      | none => .ok [] := by
  induction members with
  | nil =>
    unfold collectNestedRepeat
    rfl
  | cons head members ih =>
    obtain ⟨name, value⟩ := head
    unfold collectNestedRepeat
    rw [Json.member?_cons]
    by_cases here : name = "nested"
    · simp only [here, if_true]
    · simp only [here, if_false]
      exact ih

/-- Each repeat level yields its contract, outermost first. -/
private theorem collectRepeatStateContracts_ok (level : RepeatLevel) (nested : List RepeatLevel) :
    collectRepeatStateContracts (repeatManifest level nested) =
      .ok ((level :: nested).map (·.contract)) := by
  have one : ∀ (level : RepeatLevel) (members : List (String × Json))
      (rest : List DefinitionDurableStateContract),
      (∀ key, key ≠ "nested" → member? key members = level.manifestValue.get? key) →
      collectNestedRepeat members = .ok rest →
      collectRepeatStateContracts (.object members) = .ok (level.contract :: rest) := by
    intro level members rest lookup nested
    have id : memberStr "id" members = some level.id.value := by
      apply memberStr_text
      rw [lookup _ (by decide)]
      simp [RepeatLevel.manifestValue]
    have state : member? "state" members = some level.state.manifestValue := by
      rw [lookup _ (by decide)]
      simp [RepeatLevel.manifestValue]
    have contract : schemaContract .repeat (some level.id.value) level.state.manifestValue
        "schema" = .ok level.contract := by
      unfold RepeatStateSchema.manifestValue
      rw [schemaContract_object _ _ _ _ _ (by decide)]
      rfl
    unfold collectRepeatStateContracts
    rw [id, state, nested, orMalformed_some, accept_bind, orMalformed_some, accept_bind, contract,
      accept_bind, accept_bind]
    rfl
  induction nested generalizing level with
  | nil =>
    unfold repeatManifest
    refine one level _ [] (fun key _ => rfl) ?_
    rw [collectNestedRepeat_eq]
    simp
  | cons inner deeper ih =>
    have isObject : level.manifestValue.asObject ≠ none := by
      simp [RepeatLevel.manifestValue, Json.asObject]
    obtain ⟨members, shown⟩ := object_of_asObject
      (Json.asObject_withMember isObject "nested" (repeatManifest inner deeper))
    have lookup : ∀ key, member? key members =
        if "nested" = key then some (repeatManifest inner deeper) else level.manifestValue.get? key := by
      intro key
      rw [← Json.get?_object, ← shown, Json.get?_withMember isObject]
    unfold repeatManifest
    rw [shown]
    refine one level members _ (fun key other => ?_) ?_
    · rw [lookup, if_neg (Ne.symm other)]
    · rw [collectNestedRepeat_eq, lookup, if_pos rfl]
      exact ih inner

/-- Objects of any other kind declare no state. -/
theorem graphContracts_other {members : List (String × Json)} {kind : String}
    (named : memberStr "kind" members = some kind) (other : kind ∉ stateKinds) :
    graphNodeDurableStateContracts members = .ok [] := by
  unfold graphNodeDurableStateContracts
  rw [named]
  split
  · rename_i same
    cases same
    exact absurd (by simp [stateKinds]) other
  · rename_i same
    cases same
    exact absurd (by simp [stateKinds]) other
  · rfl

theorem graphContracts_step {members : List (String × Json)} (step : StepNode)
    (named : memberStr "kind" members = some "step")
    (declared : member? "step" members = some (.object
      [("declaration", step.components.manifestValue),
       ("kind", .string step.components.kindName),
       ("name", text step.stepName)]))
    (wrapper : member? "repeat" members = step.repeatDefinition.map (·.manifestValue)) :
    graphNodeDurableStateContracts members = .ok step.contracts := by
  unfold graphNodeDurableStateContracts
  rw [named, stepContracts_ok step.components step.stepName declared, accept_bind, wrapper]
  unfold StepNode.contracts StepNode.repeatLevels
  cases step.repeatDefinition with
  | none => simp
  | some definition =>
    have repeats := collectRepeatStateContracts_ok definition.outer definition.nested
    change (do
      let repeats ← collectRepeatStateContracts (repeatManifest definition.outer definition.nested)
      pure (step.components.contracts ++ repeats)) = _
    rw [repeats, accept_bind]
    rfl

end Reading

section Presents

/-- An object that the search never takes for a node. -/
def Silent (members : List (String × Json)) : Prop :=
  (memberStr "kind" members).any (nodeKinds.contains ·) = false ∨ memberStr "id" members = none

/-- An object that stands in a manifest for a node, a step, or an interceptor. -/
structure Shows (standing : Standing) (members : List (String × Json)) : Prop where
  id : memberStr "id" members = some standing.id.value
  kind : memberStr "kind" members = some standing.kind
  contracts : graphNodeDurableStateContracts members = standing.contracts

/-- Objects that show what stands in a manifest, in order, with silent ones between. -/
inductive Presents : List Standing → List (List (String × Json)) → Prop
  | nil : Presents [] []
  | silent {standings : List Standing} {members : List (String × Json)}
      {rest : List (List (String × Json))} (quiet : Silent members) (later : Presents standings rest) :
      Presents standings (members :: rest)
  | shown {standing : Standing} {standings : List Standing} {members : List (String × Json)}
      {rest : List (List (String × Json))} (shows : Shows standing members)
      (later : Presents standings rest) : Presents (standing :: standings) (members :: rest)

variable {standings standings' : List Standing} {found found' : List (List (String × Json))}

theorem Presents.append (left : Presents standings found) (right : Presents standings' found') :
    Presents (standings ++ standings') (found ++ found') := by
  induction left with
  | nil => exact right
  | silent quiet _ ih => exact .silent quiet ih
  | shown shows _ ih => exact .shown shows ih

theorem Presents.flatMap {α : Type} {values : List α} {standing : α → List Standing}
    {project : α → List (List (String × Json))}
    (each : ∀ value ∈ values, Presents (standing value) (project value)) :
    Presents (values.flatMap standing) (values.flatMap project) := by
  induction values with
  | nil => exact .nil
  | cons value values ih =>
    rw [List.flatMap_cons, List.flatMap_cons]
    exact (each value List.mem_cons_self).append
      (ih fun other member => each other (List.mem_cons_of_mem _ member))

theorem Shows.answers {standing : Standing} {members : List (String × Json)}
    (shows : Shows standing members) (id : NodeId) :
    isDefinitionNode id members = standing.answers id := by
  unfold isDefinitionNode Standing.answers
  rw [shows.id, shows.kind]
  have same : (some standing.id.value = some id.value) ↔ standing.id = id := by
    rw [Option.some.injEq]
    exact ⟨fun same => text_injective (congrArg Json.string same), fun same => by rw [same]⟩
  simp [same]

/-- The search stops at the first object that stands for the node. -/
theorem Presents.find (presents : Presents standings found) (id : NodeId) :
    Option.Rel Shows (standings.find? (·.answers id)) (found.find? (isDefinitionNode id)) := by
  induction presents with
  | nil => exact .none
  | silent quiet _ ih =>
    rw [List.find?_cons_of_neg]
    · exact ih
    · unfold isDefinitionNode
      rcases quiet with unkind | nameless
      · rw [unkind]
        simp
      · rw [nameless]
        simp
  | @shown standing _ members _ shows _ ih =>
    have same := shows.answers id
    cases answers : standing.answers id with
    | true =>
      rw [List.find?_cons_of_pos answers, List.find?_cons_of_pos (by rw [same, answers])]
      exact .some shows
    | false =>
      rw [List.find?_cons_of_neg (by simp [answers]),
        List.find?_cons_of_neg (by simp [same, answers])]
      exact ih

mutual

theorem presents_silent : ∀ document : Json, document.Every Silent → Presents [] document.objects
  | .null, _ | .bool _, _ | .integer _, _ | .string _, _ => by
    simp only [Json.objects]
    exact .nil
  | .float _, every => by simp [Json.Every] at every
  | .array values, every => by
    simp only [Json.Every] at every
    simp only [Json.objects]
    exact presents_silent_values values every
  | .object members, every => by
    rw [Json.every_object] at every
    rw [Json.objects_object]
    exact .silent every.1 (presents_silent_members members every.2)

private theorem presents_silent_values : ∀ values : List Json, Json.EveryValue Silent values →
    Presents [] (Json.valueObjects values)
  | [], _ => by
    simp only [Json.valueObjects]
    exact .nil
  | value :: values, every => by
    simp only [Json.EveryValue] at every
    simp only [Json.valueObjects]
    exact (presents_silent value every.1).append (presents_silent_values values every.2)

theorem presents_silent_members : ∀ members : List (String × Json), Json.EveryMember Silent members →
    Presents [] (memberObjects members)
  | [], _ => by
    rw [Json.memberObjects_nil]
    exact .nil
  | (key, value) :: members, every => by
    rw [Json.everyMember_cons] at every
    rw [Json.memberObjects_cons]
    exact (presents_silent value every.1).append (presents_silent_members members every.2)

end

end Presents

end OxideBatch.Plan
