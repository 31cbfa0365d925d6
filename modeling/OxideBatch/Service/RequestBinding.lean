import OxideBatch.Service.RequestDigests

/-! The digest of an operator request: its action, target, version, reason, and arguments
are read back from the canonical bytes, and the digests among them from what they hash. -/

namespace OxideBatch.Service

open OxideBatch.Core OxideBatch.Plan OxideBatch.Repository OxideBatch.Lib

section Transforms

private theorem stateKindText_injective : Function.Injective stateKindText := by
  intro left right same
  cases left <;> cases right <;> first | rfl | simp [stateKindText] at same

def transformBytes (transform : DefinitionStateTransform) : List UInt8 :=
  CanonicalBytes.pushStateTransform [] transform

private theorem pushStateTransform_eq (writer : CanonicalBytes)
    (transform : DefinitionStateTransform) :
    writer.pushStateTransform transform = writer ++ transformBytes transform := by
  simp only [transformBytes, CanonicalBytes.pushStateTransform, CanonicalBytes.pushStr_eq,
    CanonicalBytes.pushU64_eq, List.append_assoc, List.nil_append]

private theorem legible_transform : Legible (fun _ => True) transformBytes := by
  intro left right rest rest' _ _ same
  simp only [transformBytes, CanonicalBytes.pushStateTransform, CanonicalBytes.pushStr_eq,
    CanonicalBytes.pushU64_eq, List.append_assoc, List.nil_append] at same
  have kinds : Legible (fun _ : DefinitionStateKind => True)
      (fun kind => prefixed 8 (textBytes (stateKindText kind))) :=
    legible_label (fun kind => by cases kind <;> decide) stateKindText_injective
  obtain ⟨sourceNodes, behind⟩ := legible_token (by decide) trivial trivial same
  obtain ⟨targetNodes, behind⟩ := legible_token (by decide) trivial trivial behind
  obtain ⟨kinds, behind⟩ := kinds trivial trivial behind
  obtain ⟨states, behind⟩ := legible_token (by decide) trivial trivial behind
  obtain ⟨sourceSchemas, behind⟩ := legible_token (by decide) trivial trivial behind
  obtain ⟨sourceVersions, behind⟩ := legible_schemaVersion trivial trivial behind
  obtain ⟨targetSchemas, behind⟩ := legible_token (by decide) trivial trivial behind
  obtain ⟨targetVersions, behind⟩ := legible_schemaVersion trivial trivial behind
  obtain ⟨revisions, rests⟩ := legible_token (by decide) trivial trivial behind
  cases left
  cases right
  cases sourceNodes
  cases targetNodes
  cases kinds
  cases states
  cases sourceSchemas
  cases sourceVersions
  cases targetSchemas
  cases targetVersions
  cases revisions
  exact ⟨rfl, rests⟩

end Transforms

section Upgrades

variable {maxBytes : Nat}

/-- One entry of a mapping. -/
def entryBytes (entry : Token maxBytes × Token maxBytes) : List UInt8 :=
  prefixed 8 (textBytes entry.1.value) ++ prefixed 8 (textBytes entry.2.value)

private theorem legible_entry (wide : maxBytes < 256 ^ 8) :
    Legible (fun _ : Token maxBytes × Token maxBytes => True) entryBytes :=
  ((legible_token wide).both (legible_token wide)).mono fun _ _ => ⟨trivial, trivial⟩

private theorem pushMapping_eq (writer : CanonicalBytes)
    (mapping : List (Token maxBytes × Token maxBytes)) :
    writer.pushMapping mapping = writer ++
      (beBytes 8 (min mapping.length (u64Limit - 1)) ++ mapping.flatMap entryBytes) := by
  have entries : ∀ (writer : CanonicalBytes) (entry : Token maxBytes × Token maxBytes),
      (writer.pushStr entry.1.value).pushStr entry.2.value = writer ++ entryBytes entry := by
    intro writer entry
    simp only [CanonicalBytes.pushStr_eq, entryBytes, List.append_assoc]
  unfold CanonicalBytes.pushMapping
  rw [CanonicalBytes.foldl_writes _ entries, CanonicalBytes.pushU64_eq, List.append_assoc]

/-- A list behind its number is read back. -/
private theorem counted_cut {Value : Type} {domain : Value → Prop} {write : Value → List UInt8}
    {left right : List Value} {rest rest' : List UInt8} (legible : Legible domain write)
    (within : ∀ value ∈ left, domain value) (within' : ∀ value ∈ right, domain value)
    (bounded : left.length < u64Limit) (bounded' : right.length < u64Limit)
    (same : beBytes 8 (min left.length (u64Limit - 1)) ++ (left.flatMap write ++ rest) =
      beBytes 8 (min right.length (u64Limit - 1)) ++ (right.flatMap write ++ rest')) :
    left = right ∧ rest = rest' := by
  rw [Nat.min_eq_left (by omega), Nat.min_eq_left (by omega)] at same
  obtain ⟨counts, behind⟩ := Legible.number 8 bounded bounded' same
  exact legible.counted within within' counts behind

/-- What the types and the constructors of an upgrade admit. -/
structure UpgradeAdmitted (serde : Serde) (upgrade : DefinitionUpgrade) : Prop where
  source : Sealed serde upgrade.source
  target : Sealed serde upgrade.target
  steps : upgrade.stepMapping.toList.length < u64Limit
  nodes : upgrade.nodeMapping.toList.length < u64Limit
  transforms : upgrade.transforms.length < u64Limit

private theorem pushDefinitionUpgrade_eq (writer : CanonicalBytes) (upgrade : DefinitionUpgrade) :
    writer.pushDefinitionUpgrade upgrade = writer ++
      (prefixed 8 (textBytes upgrade.key.value) ++
        (prefixed 8 (textBytes ((upgrade.revision.map (·.value)).getD "")) ++
          (prefixed 8 (textBytes upgrade.source.revision.value) ++
            (beBytes 8 upgrade.source.manifestFormat ++
              (prefixed 8 (digestBytes upgrade.source.manifestDigest) ++
                (prefixed 8 (textBytes upgrade.target.revision.value) ++
                  (beBytes 8 upgrade.target.manifestFormat ++
                    (prefixed 8 (digestBytes upgrade.target.manifestDigest) ++
                      (beBytes 8 (min upgrade.stepMapping.toList.length (u64Limit - 1)) ++
                        (upgrade.stepMapping.toList.flatMap entryBytes ++
                          (beBytes 8 (min upgrade.nodeMapping.toList.length (u64Limit - 1)) ++
                            (upgrade.nodeMapping.toList.flatMap entryBytes ++
                              (beBytes 8 (min upgrade.transforms.length (u64Limit - 1)) ++
                                upgrade.transforms.flatMap transformBytes))))))))))))) := by
  unfold CanonicalBytes.pushDefinitionUpgrade
  rw [CanonicalBytes.foldl_writes _ pushStateTransform_eq]
  simp only [pushMapping_eq, CanonicalBytes.pushDefinitionIdentity, CanonicalBytes.pushStr_eq,
    CanonicalBytes.pushU64_eq, CanonicalBytes.pushBytes_eq, List.append_assoc]

/-- An upgrade but for the job names beside its manifests. -/
def unnamedUpgrade (upgrade : DefinitionUpgrade) : DefinitionUpgrade :=
  { upgrade with source := unnamed upgrade.source, target := unnamed upgrade.target }

private theorem upgrade_cut {serde : Serde} {left right : DefinitionUpgrade}
    (admitted : UpgradeAdmitted serde left) (admitted' : UpgradeAdmitted serde right)
    (apart : Set.InjOn serde.sha256 {bytes | bytes ∈ [left.source.canonicalManifest,
      left.target.canonicalManifest, right.source.canonicalManifest,
      right.target.canonicalManifest]})
    (same : CanonicalBytes.pushDefinitionUpgrade [] left =
      CanonicalBytes.pushDefinitionUpgrade [] right) : unnamedUpgrade left = unnamedUpgrade right := by
  rw [pushDefinitionUpgrade_eq, pushDefinitionUpgrade_eq, List.nil_append, List.nil_append] at same
  obtain ⟨keys, behind⟩ := legible_token (by decide) trivial trivial same
  obtain ⟨revisions, behind⟩ := legible_optionalName (by decide) trivial trivial behind
  obtain ⟨sources, sourceDigests, behind⟩ := definition_cut admitted.source admitted'.source behind
  obtain ⟨targets, targetDigests, behind⟩ := definition_cut admitted.target admitted'.target behind
  obtain ⟨steps, behind⟩ := counted_cut (legible_entry (by decide)) (fun _ _ => trivial)
    (fun _ _ => trivial) admitted.steps admitted'.steps behind
  obtain ⟨nodes, behind⟩ := counted_cut (legible_entry (by decide)) (fun _ _ => trivial)
    (fun _ _ => trivial) admitted.nodes admitted'.nodes behind
  have ended := congrArg (· ++ []) behind
  simp only [List.append_assoc] at ended
  obtain ⟨transforms, _⟩ := counted_cut legible_transform (fun _ _ => trivial) (fun _ _ => trivial)
    admitted.transforms admitted'.transforms ended
  have source := unnamed_of_digest admitted.source admitted'.source
    (apart.mono (by rintro bytes (rfl | rfl) <;> simp)) sources sourceDigests
  have target := unnamed_of_digest admitted.target admitted'.target
    (apart.mono (by rintro bytes (rfl | rfl) <;> simp)) targets targetDigests
  unfold unnamedUpgrade
  rw [source, target]
  obtain ⟨_, _, _, _, _, _, _⟩ := left
  obtain ⟨_, _, _, _, _, _, _⟩ := right
  cases keys
  cases revisions
  cases Std.ExtTreeMap.toList_inj.mp steps
  cases Std.ExtTreeMap.toList_inj.mp nodes
  cases transforms
  rfl

end Upgrades

section Forks

/-- What the types and the constructors of a fork request admit. -/
structure ForkAdmitted (serde : Serde) (request : ForkRequest) : Prop where
  definition : Sealed serde request.target.definition
  named : request.target.definition.jobName = some request.target.jobName
  parameters : ∀ entry ∈ request.parameters.toList, entry.2.value.Admitted

/-- The selected transform of a fork, or that there is none. -/
def selectionBytes : Option ForkContextTransform → List UInt8
  | some selected =>
    beBytes 8 1 ++ (beBytes 8 selected.sourceStepExecutionId.get ++
      (beBytes 8 selected.sourceStepVersion.val ++ transformBytes selected.descriptor))
  | none => beBytes 8 0

private theorem pushForkRequest_eq (hash : List UInt8 → Digest) (writer : CanonicalBytes)
    (request : ForkRequest) :
    writer.pushForkRequest hash request = writer ++
      (beBytes 8 request.sourceExecutionId.get ++ (beBytes 8 request.sourceVersion.val ++
        (prefixed 8 (textBytes request.target.jobName.value) ++
          (prefixed 8 (textBytes request.target.definition.revision.value) ++
            (beBytes 8 request.target.definition.manifestFormat ++
              (prefixed 8 (digestBytes request.target.definition.manifestDigest) ++
                (prefixed 8 (textBytes request.target.artifact.value) ++
                  (prefixed 8 (digestBytes
                      (JobParameters.flowInputDigest hash request.parameters)) ++
                    selectionBytes request.contextTransform)))))))) := by
  unfold CanonicalBytes.pushForkRequest
  cases request.contextTransform <;>
    simp only [pushStateTransform_eq, selectionBytes, CanonicalBytes.pushDefinitionIdentity,
      CanonicalBytes.pushStr_eq, CanonicalBytes.pushU64_eq, CanonicalBytes.pushBytes_eq,
      List.append_assoc]

private theorem selection_inj {left right : Option ForkContextTransform}
    (same : selectionBytes left = selectionBytes right) : left = right := by
  cases left with
  | none =>
    cases right with
    | none => rfl
    | some right =>
      have widths := congrArg List.length same
      simp [selectionBytes] at widths
  | some left =>
    cases right with
    | none =>
      have widths := congrArg List.length same
      simp [selectionBytes] at widths
    | some right =>
      obtain ⟨steps, behind⟩ := legible_id trivial trivial (List.append_cancel_left same)
      obtain ⟨versions, behind⟩ := legible_version trivial trivial behind
      have descriptors := legible_transform.injOn trivial trivial behind
      cases left
      cases right
      cases steps
      cases versions
      cases descriptors
      rfl

/-- A fork but for the operation it is asked under. -/
def unkeyed (request : ForkRequest) : ForkRequest :=
  { request with operationId := ⟨"-", Eq.refl true⟩ }

private theorem fork_cut {serde : Serde} {left right : ForkRequest}
    (admitted : ForkAdmitted serde left)
    (admitted' : ForkAdmitted serde right)
    (apart : Set.InjOn serde.sha256 {bytes | bytes ∈ [left.target.definition.canonicalManifest,
      JobParameters.flowInputBytes left.parameters, right.target.definition.canonicalManifest,
      JobParameters.flowInputBytes right.parameters]})
    (same : CanonicalBytes.pushForkRequest serde.sha256 [] left =
      CanonicalBytes.pushForkRequest serde.sha256 [] right) : unkeyed left = unkeyed right := by
  rw [pushForkRequest_eq, pushForkRequest_eq, List.nil_append, List.nil_append] at same
  obtain ⟨executions, behind⟩ := legible_id trivial trivial same
  obtain ⟨versions, behind⟩ := legible_version trivial trivial behind
  obtain ⟨names, behind⟩ := legible_token (by decide) trivial trivial behind
  obtain ⟨revisions, digests, behind⟩ := definition_cut admitted.definition admitted'.definition
    behind
  obtain ⟨artifacts, behind⟩ := legible_token (by decide) trivial trivial behind
  obtain ⟨inputs, behind⟩ := legible_digestField trivial trivial behind
  have selections := selection_inj behind
  have parameters : left.parameters = right.parameters :=
    JobParameters.flowInputBytes_injOn admitted.parameters admitted'.parameters
      (apart (by simp) (by simp) inputs)
  have definitions := unnamed_of_digest admitted.definition admitted'.definition
    (apart.mono (by rintro bytes (rfl | rfl) <;> simp)) revisions digests
  have named := admitted.named
  have named' := admitted'.named
  obtain ⟨_, _, _, ⟨_, ⟨_, _, _, _, _⟩, _⟩, _, _⟩ := left
  obtain ⟨_, _, _, ⟨_, ⟨_, _, _, _, _⟩, _⟩, _, _⟩ := right
  simp only [unnamed, DefinitionIdentity.mk.injEq, true_and] at definitions
  obtain ⟨rfl, rfl, rfl, rfl⟩ := definitions
  cases executions
  cases versions
  cases names
  cases artifacts
  cases parameters
  cases selections
  dsimp only at named named'
  subst named named'
  rfl

end Forks

section Targets

theorem utf8ByteSize_le (text : String) : text.utf8ByteSize ≤ 4 * text.toList.length := by
  rw [← length_textBytes, textBytes]
  generalize text.toList = characters
  induction characters with
  | nil => simp
  | cons character characters ih =>
    have small := character.utf8Size_le_four
    simp only [List.flatMap_cons, List.length_append, String.length_utf8EncodeChar,
      List.length_cons]
    omega

variable {hash : List UInt8 → Digest}

private theorem decimal_short {value : Nat} (within : value < u64Limit) :
    (toString value).utf8ByteSize ≤ 80 := by
  have digits := Nat.repr_length value 20 (by decide) (Nat.lt_trans within (by decide))
  have bytes := utf8ByteSize_le (toString value)
  have length : (toString value).toList.length ≤ 20 := by
    rw [String.length_toList]
    exact digits
  omega

private theorem identity_lt (target : OperatorTarget) :
    (target.identity hash).utf8ByteSize < 256 ^ 8 := by
  cases target with
  | instanceKey key =>
    have digits : (hexText (digestBytes (key.digest hash))).utf8ByteSize = 64 := by
      rw [← length_textBytes, length_hexText, digestBytes, length_beBytes]
    simp only [OperatorTarget.identity, String.utf8ByteSize_append, digits]
    decide
  | jobInstance id =>
    have short := decimal_short id.within
    have label : ("instance:" : String).utf8ByteSize = 9 := by decide
    simp only [OperatorTarget.identity, String.utf8ByteSize_append, label]
    omega
  | execution id =>
    have short := decimal_short id.within
    have label : ("execution:" : String).utf8ByteSize = 10 := by decide
    simp only [OperatorTarget.identity, String.utf8ByteSize_append, label]
    omega

/-- What the types of a target admit. -/
def TargetAdmitted : OperatorTarget → Prop
  | .instanceKey key => ∀ entry ∈ key.identifyingParameters, entry.2.Admitted
  | .jobInstance _ | .execution _ => True

/-- What is hashed for the identity of a target. -/
def targetHashed : OperatorTarget → List (List UInt8)
  | .instanceKey key => [key.bytes]
  | .jobInstance _ | .execution _ => []

private theorem identity_inj {left right : OperatorTarget} (admitted : TargetAdmitted left)
    (admitted' : TargetAdmitted right)
    (apart : Set.InjOn hash {bytes | bytes ∈ targetHashed left ++ targetHashed right})
    (same : left.identity hash = right.identity hash) : left = right := by
  have chars := congrArg String.toList same
  cases left <;> cases right <;>
    simp only [OperatorTarget.identity, String.append_right_inj] at same <;>
    simp [OperatorTarget.identity] at chars
  case instanceKey.instanceKey left right =>
    have keys := apart (by simp [targetHashed]) (by simp [targetHashed])
      (digestBytes_injective (hexText_injective same))
    exact congrArg _ (JobInstanceKey.bytes_injOn admitted admitted' keys)
  case jobInstance.jobInstance left right =>
    exact congrArg _ (Id.get_injective (decimal_inj (congrArg String.toList same)))
  case execution.execution left right =>
    exact congrArg _ (Id.get_injective (decimal_inj (congrArg String.toList same)))

end Targets

section Arguments

/-- The label of the arguments of a request. -/
def argumentLabel : RequestArguments → String
  | .none => "NONE"
  | .definition _ => "DEFINITION"
  | .definitionUpgrade _ => "DEFINITION_UPGRADE"
  | .fork _ => "FORK"
  | .recovery _ _ _ => "RECOVERY"

/-- The failure a directive states, or that it states none. -/
def failureBytes (failure : Option (FailureCategory × FailureId)) : List UInt8 :=
  match failure with
  | some (category, failureId) => prefixed 8 (textBytes category.asStr) ++ beBytes 8 failureId.get
  | none => prefixed 8 (textBytes "")

/-- The arguments behind their label. -/
def argumentBytes (hash : List UInt8 → Digest) : RequestArguments → List UInt8
  | .none => []
  | .definition definition => prefixed 8 (textBytes definition.revision.value) ++
      prefixed 8 (digestBytes definition.manifestDigest)
  | .definitionUpgrade upgrade => CanonicalBytes.pushDefinitionUpgrade [] upgrade
  | .fork request => CanonicalBytes.pushForkRequest hash [] request
  | .recovery directive evidenceDigest unknownCommit =>
    prefixed 8 (textBytes directive.resultingStatus.asStr) ++
      (prefixed 8 (digestBytes evidenceDigest) ++ (beBytes 8 unknownCommit.toNat ++
        failureBytes directive.failure))

/-- An optional number behind its flag. -/
def optionalBytes : Option Nat → List UInt8
  | some value => 1 :: beBytes 8 value
  | none => [0]

private theorem pushOptionalU64_eq (writer : CanonicalBytes) (value : Option Nat) :
    writer.pushOptionalU64 value = writer ++ optionalBytes value := by
  cases value with
  | none => rfl
  | some value => simp [CanonicalBytes.pushOptionalU64, optionalBytes, CanonicalBytes.pushU64_eq]

private theorem legible_optionalVersion : Legible (fun _ : Option ExecutionVersion => True)
    (fun version => optionalBytes (version.map Fin.val)) := by
  intro left right rest rest' _ _ same
  cases left <;> cases right <;>
    simp only [Option.map_none, Option.map_some, optionalBytes, List.cons_append,
      List.cons.injEq] at same
  case none.none => exact ⟨rfl, same.2⟩
  case some.some =>
    obtain ⟨versions, rests⟩ := legible_version trivial trivial same.2
    exact ⟨congrArg some versions, rests⟩
  all_goals exact absurd same.1 (by decide)

private theorem requestBytes_eq (hash : List UInt8 → Digest) (action : OperatorAction)
    (target : String)
    (version : Option ExecutionVersion) (reason : Option ReasonCode)
    (arguments : RequestArguments) :
    requestBytes hash action target version reason arguments =
      CanonicalBytes.new "oxide-batch.operator-request.v1" ++
        (prefixed 8 (textBytes action.asStr) ++ (prefixed 8 (textBytes target) ++
          (optionalBytes (version.map Fin.val) ++
            (prefixed 8 (textBytes ((reason.map (·.value)).getD "")) ++
              (prefixed 8 (textBytes (argumentLabel arguments)) ++
                argumentBytes hash arguments))))) := by
  unfold requestBytes
  cases arguments with
  | recovery directive evidenceDigest unknownCommit =>
    cases directive <;>
      simp only [argumentLabel, argumentBytes, failureBytes, RecoveryDirective.failure,
        pushOptionalU64_eq, CanonicalBytes.pushStr_eq, CanonicalBytes.pushU64_eq,
        CanonicalBytes.pushBytes_eq, List.append_assoc]
  | _ =>
    simp only [argumentLabel, argumentBytes, pushOptionalU64_eq, pushDefinitionUpgrade_eq,
      pushForkRequest_eq, CanonicalBytes.pushStr_eq, CanonicalBytes.pushBytes_eq,
      List.append_assoc, List.append_nil, List.nil_append]

/-- What the types and the constructors of arguments admit. -/
def ArgumentsAdmitted (serde : Serde) : RequestArguments → Prop
  | .definition definition => Sealed serde definition
  | .definitionUpgrade upgrade => UpgradeAdmitted serde upgrade
  | .fork request => ForkAdmitted serde request
  | .none | .recovery _ _ _ => True

/-- What is hashed for the digests among the arguments. -/
def argumentsHashed : RequestArguments → List (List UInt8)
  | .definition definition => [definition.canonicalManifest]
  | .definitionUpgrade upgrade => [upgrade.source.canonicalManifest,
      upgrade.target.canonicalManifest]
  | .fork request => [request.target.definition.canonicalManifest,
      JobParameters.flowInputBytes request.parameters]
  | .none | .recovery _ _ _ => []

/-- The arguments but for the operation of a fork, and for the job names beside the
manifests of definitions. -/
def boundArguments : RequestArguments → RequestArguments
  | .definition definition => .definition (unnamed definition)
  | .definitionUpgrade upgrade => .definitionUpgrade (unnamedUpgrade upgrade)
  | .fork request => .fork (unkeyed request)
  | .none => .none
  | .recovery directive evidenceDigest unknownCommit =>
    .recovery directive evidenceDigest unknownCommit

private theorem failure_inj {left right : RecoveryDirective}
    (same : failureBytes left.failure = failureBytes right.failure) : left = right := by
  have short : ∀ category : FailureCategory, category.asStr.utf8ByteSize < 256 ^ 8 := by
    intro category
    cases category <;> decide
  have named : ∀ category : FailureCategory, category.asStr ≠ "" := by
    intro category
    cases category <;> simp [FailureCategory.asStr]
  cases left with
  | abandon =>
    cases right with
    | abandon => rfl
    | markFailed category failureId =>
      have ended := congrArg (· ++ []) same
      simp only [failureBytes, RecoveryDirective.failure, List.append_assoc] at ended
      exact absurd (legible_text 8 (by decide) (short category) ended).1.symm (named category)
  | markFailed category failureId =>
    cases right with
    | abandon =>
      have ended := congrArg (· ++ []) same
      simp only [failureBytes, RecoveryDirective.failure, List.append_assoc] at ended
      exact absurd (legible_text 8 (short category) (by decide) ended).1 (named category)
    | markFailed category' failureId' =>
      obtain ⟨categories, behind⟩ := legible_text 8 (short category) (short category') same
      rw [category_asStr_injective categories, legible_id.injOn trivial trivial behind]

private theorem arguments_inj {serde : Serde} {left right : RequestArguments}
    (admitted : ArgumentsAdmitted serde left) (admitted' : ArgumentsAdmitted serde right)
    (apart : Set.InjOn serde.sha256 {bytes | bytes ∈ argumentsHashed left ++ argumentsHashed right})
    (same : prefixed 8 (textBytes (argumentLabel left)) ++ argumentBytes serde.sha256 left =
      prefixed 8 (textBytes (argumentLabel right)) ++ argumentBytes serde.sha256 right) :
    boundArguments left = boundArguments right := by
  have short : ∀ arguments, (argumentLabel arguments).utf8ByteSize < 256 ^ 8 := by
    intro arguments
    cases arguments <;> simp only [argumentLabel] <;> decide
  obtain ⟨labels, behind⟩ := legible_text 8 (short left) (short right) same
  cases left <;> cases right <;> simp [argumentLabel] at labels
  case none.none => rfl
  case definition.definition left right =>
    obtain ⟨revisions, behind⟩ := legible_token (by decide) trivial trivial behind
    have digests := legible_digestField.injOn trivial trivial behind
    exact congrArg RequestArguments.definition (unnamed_of_digest admitted admitted'
      (apart.mono (by rintro bytes (rfl | rfl) <;> simp [argumentsHashed])) revisions digests)
  case definitionUpgrade.definitionUpgrade left right =>
    exact congrArg RequestArguments.definitionUpgrade (upgrade_cut admitted admitted' apart behind)
  case fork.fork left right =>
    exact congrArg RequestArguments.fork (fork_cut admitted admitted' apart behind)
  case recovery.recovery left evidence commit right evidence' commit' =>
    obtain ⟨_, behind⟩ := legible_status trivial trivial behind
    obtain ⟨digests, behind⟩ := legible_digestField trivial trivial behind
    obtain ⟨commits, behind⟩ := legible_flag trivial trivial behind
    rw [digests, commits, failure_inj behind]

end Arguments

section Requests

/-- What the types and the constructors of a request admit. -/
structure RequestAdmitted (serde : Serde) (request : OperatorRequest) : Prop where
  target : TargetAdmitted request.target
  arguments : ArgumentsAdmitted serde request.arguments

/-- All that is hashed for the digest of a request. -/
def OperatorRequest.hashed (hash : List UInt8 → Digest) (request : OperatorRequest) :
    List (List UInt8) :=
  request.bytes hash :: (targetHashed request.target ++ argumentsHashed request.arguments)

/-- What the digest of a request binds. -/
def OperatorRequest.bound (request : OperatorRequest) :=
  (request.action, request.target, request.expectedVersion, request.reason,
    boundArguments request.arguments)

theorem OperatorAction.asStr_injective : Function.Injective OperatorAction.asStr := by
  intro left right same
  cases left <;> cases right <;> first | rfl | simp [OperatorAction.asStr] at same

variable {serde : Serde}

theorem OperatorRequest.bytes_inj {left right : OperatorRequest}
    (admitted : RequestAdmitted serde left) (admitted' : RequestAdmitted serde right)
    (apart : Set.InjOn serde.sha256
      {bytes | bytes ∈ left.hashed serde.sha256 ++ right.hashed serde.sha256})
    (same : left.bytes serde.sha256 = right.bytes serde.sha256) : left.bound = right.bound := by
  unfold OperatorRequest.bytes at same
  rw [requestBytes_eq, requestBytes_eq] at same
  have actions : Legible (fun _ : OperatorAction => True)
      (fun action => prefixed 8 (textBytes action.asStr)) :=
    legible_label (fun action => by cases action <;> decide) OperatorAction.asStr_injective
  obtain ⟨actions, behind⟩ := actions trivial trivial (List.append_cancel_left same)
  obtain ⟨targets, behind⟩ := legible_text 8 (identity_lt left.target) (identity_lt right.target)
    behind
  obtain ⟨versions, behind⟩ := legible_optionalVersion trivial trivial behind
  obtain ⟨reasons, behind⟩ := legible_optionalName (by decide) trivial trivial behind
  have target := identity_inj admitted.target admitted'.target (apart.mono (by
    intro bytes member
    rcases List.mem_append.mp member with member | member <;> simp [OperatorRequest.hashed, member]))
    targets
  have arguments := arguments_inj admitted.arguments admitted'.arguments (apart.mono (by
    intro bytes member
    rcases List.mem_append.mp member with member | member <;> simp [OperatorRequest.hashed, member]))
    behind
  unfold OperatorRequest.bound
  rw [actions, target, versions, reasons, arguments]

private theorem requestBytes_bound (hash : List UInt8 → Digest) (action : OperatorAction)
    (target : String) (version : Option ExecutionVersion) (reason : Option ReasonCode)
    (arguments : RequestArguments) :
    requestBytes hash action target version reason (boundArguments arguments) =
      requestBytes hash action target version reason arguments := by
  cases arguments <;> rfl

/-- The digest of a request is a function of what it binds. -/
theorem OperatorRequest.digest_of_bound {hash : List UInt8 → Digest} {left right : OperatorRequest}
    (same : left.bound = right.bound) : left.digest hash = right.digest hash := by
  simp only [OperatorRequest.bound, Prod.mk.injEq] at same
  obtain ⟨actions, targets, versions, reasons, arguments⟩ := same
  unfold OperatorRequest.digest OperatorRequest.bytes
  rw [actions, targets, versions, reasons, ← requestBytes_bound _ _ _ _ _ left.arguments, arguments,
    requestBytes_bound]

/-- The request of a recovery admits whatever its evidence is. -/
private theorem recover_admitted (operationId : OperationId) (actor : ActorRef)
    (reason : ReasonCode)
    (directive : RecoveryDirective) (evidence : RecoveryEvidence) :
    RequestAdmitted serde
      (.recover serde.sha256 operationId actor reason directive evidence) :=
  ⟨trivial, trivial⟩

private theorem recover_inj {operationId operationId' : OperationId} {actor actor' : ActorRef}
    {reason reason' : ReasonCode} {directive directive' : RecoveryDirective}
    {evidence evidence' : RecoveryEvidence}
    (same : (OperatorRequest.recover serde.sha256 operationId actor reason directive
        evidence).bound =
      (OperatorRequest.recover serde.sha256 operationId' actor' reason' directive'
        evidence').bound) :
    reason = reason' ∧ directive = directive' ∧
      serde.sha256 evidence.bytes = serde.sha256 evidence'.bytes := by
  simp only [OperatorRequest.bound, OperatorRequest.recover, boundArguments, Prod.mk.injEq,
    Option.some.injEq, RequestArguments.recovery.injEq] at same
  exact ⟨same.2.2.2.1, same.2.2.2.2.1, same.2.2.2.2.2.1⟩

end Requests

/-- Where no two strings hashed collide, a request digest binds the request but for the
operation of a fork and the job names beside manifests; a plan digest its request, by whole
seconds, and its candidates; an evidence digest the durable fields; and the request of a
recovery both its directive and its evidence. -/
theorem digests_bind (serde : Serde) :
    (∀ left right : OperatorRequest, RequestAdmitted serde left → RequestAdmitted serde right →
      Set.InjOn serde.sha256
        {bytes | bytes ∈ left.hashed serde.sha256 ++ right.hashed serde.sha256} →
      (left.digest serde.sha256 = right.digest serde.sha256 ↔ left.bound = right.bound)) ∧
    (∀ left right : PurgePlan, PlanAdmitted left → PlanAdmitted right →
      Set.InjOn serde.sha256 {planBytes left, planBytes right} →
      serde.sha256 (planBytes left) = serde.sha256 (planBytes right) →
      left.request.jobName = right.request.jobName ∧
        left.request.statuses.statuses = right.request.statuses.statuses ∧
        left.request.minimumAge / 10 ^ 9 = right.request.minimumAge / 10 ^ 9 ∧
        left.request.batch = right.request.batch ∧ left.candidates = right.candidates) ∧
    (∀ left right : RecoveryEvidence, Set.InjOn serde.sha256 {left.bytes, right.bytes} →
      left.digest serde.sha256 = right.digest serde.sha256 → left.durable = right.durable) ∧
    ∀ (operationId operationId' : OperationId) (actor actor' : ActorRef)
      (reason reason' : ReasonCode) (directive directive' : RecoveryDirective)
      (evidence evidence' : RecoveryEvidence),
      Set.InjOn serde.sha256 {
        (OperatorRequest.recover serde.sha256 operationId actor reason directive evidence).bytes
          serde.sha256,
        (OperatorRequest.recover serde.sha256 operationId' actor' reason' directive'
          evidence').bytes serde.sha256, evidence.bytes, evidence'.bytes} →
      (OperatorRequest.recover serde.sha256 operationId actor reason directive evidence).digest
          serde.sha256 =
        (OperatorRequest.recover serde.sha256 operationId' actor' reason' directive'
          evidence').digest serde.sha256 →
      reason = reason' ∧ directive = directive' ∧ evidence.durable = evidence'.durable := by
  refine ⟨?_, ?_, ?_, ?_⟩
  · intro left right admitted admitted' apart
    constructor
    · intro same
      exact OperatorRequest.bytes_inj admitted admitted' apart
        (apart (by simp [OperatorRequest.hashed]) (by simp [OperatorRequest.hashed]) same)
    · exact OperatorRequest.digest_of_bound
  · intro left right admitted admitted' apart same
    exact planBytes_inj admitted admitted' (apart (by simp) (by simp) same)
  · intro left right apart same
    exact RecoveryEvidence.bytes_inj (apart (by simp) (by simp) same)
  · intro operationId operationId' actor actor' reason reason' directive directive' evidence
      evidence' apart same
    have bounds := OperatorRequest.bytes_inj
      (recover_admitted operationId actor reason directive evidence)
      (recover_admitted operationId' actor' reason' directive' evidence')
      (apart.mono (by
        rintro bytes member
        simp only [OperatorRequest.hashed, OperatorRequest.recover, targetHashed, argumentsHashed,
          List.nil_append, Set.mem_ofPred_eq, List.mem_append, List.mem_singleton] at member
        rcases member with rfl | rfl
        · exact Set.mem_insert _ _
        · exact Set.mem_insert_of_mem _ (Set.mem_insert _ _)))
      (apart (by simp) (by simp) same)
    obtain ⟨reasons, directives, digests⟩ := recover_inj bounds
    exact ⟨reasons, directives, RecoveryEvidence.bytes_inj (apart (by simp) (by simp) digests)⟩

section Instances

/-- Manifests of the first format, and the hash without short collisions. -/
def spelledSerde : Serde where
  toVec _ := none
  fromSlice _ := some (.object [("format", .integer 1)])
  sha256 := spelledHash

def stopAt (version : ExecutionVersion) : OperatorRequest :=
  .stop ⟨"stop-1", Eq.refl true⟩ ⟨"operator", Eq.refl true⟩ 7 version

/-- A plan over failed executions older than an hour. -/
def failedPlan (batch : PurgeBatchBound) : PurgePlan where
  request :=
    { jobName := ⟨"nightly", Eq.refl true⟩
      statuses := ⟨(∅ : Std.ExtTreeSet BatchStatus).insert .failed,
        by simp [BatchStatus.isFinished], Std.ExtTreeSet.insert_ne_empty⟩
      minimumAge := minPurgeAge
      batch
      aged := le_rfl }
  candidates := [⟨1, 7, 2⟩]
  counts := ⟨0, 0, 0, 0, 0, 1, 0⟩

/-- Evidence of an execution without an owner and without steps. -/
def evidenceOf (status : BatchStatus) : RecoveryEvidence where
  snapshot :=
    { executionId := 7
      status
      attempt := 1
      version := 2
      owner := .absent
      updatedAt := ⟨10 ^ 9, by decide⟩
      serverTime := ⟨10 ^ 12, by decide⟩
      latestStep := none
      markers := ⟨false, false, false, false⟩ }
  inactivity := 10 ^ 12
  observedClockOffset := 0
  observationWindow := 0

def recoverWith (directive : RecoveryDirective) : OperatorRequest :=
  .recover spelledHash ⟨"recover-1", Eq.refl true⟩ ⟨"operator", Eq.refl true⟩ ⟨"STALE", Eq.refl true⟩
    directive (evidenceOf .started)

/-- No collision among listed strings is none among the strings of a set within them. -/
private theorem injOn_of_listed {hash : List UInt8 → Digest} {strings : List (List UInt8)}
    {set : Set (List UInt8)}
    (apart : ∀ first ∈ strings, ∀ second ∈ strings, hash first = hash second → first = second)
    (within : ∀ bytes ∈ set, bytes ∈ strings) : Set.InjOn hash set :=
  fun first member second member' same =>
    apart first (within first member) second (within second member') same

theorem versions_plans_and_evidence_are_told_apart :
    (stopAt 1).digest spelledHash ≠ (stopAt 2).digest spelledHash ∧
      spelledHash (planBytes (failedPlan ⟨1, by decide⟩)) ≠
        spelledHash (planBytes (failedPlan ⟨2, by decide⟩)) ∧
      (evidenceOf .started).digest spelledHash ≠ (evidenceOf .unknown).digest spelledHash ∧
      (recoverWith .abandon).digest spelledHash ≠
        (recoverWith (.markFailed .timeout 3)).digest spelledHash := by
  obtain ⟨requests, plans, evidences, recoveries⟩ := digests_bind spelledSerde
  refine ⟨fun same => ?_, fun same => ?_, fun same => ?_, fun same => ?_⟩
  · have apart := @injOn_of_listed spelledHash ((stopAt 1).hashed spelledHash ++
      (stopAt 2).hashed spelledHash) _ (by decide +kernel) (fun _ member => member)
    have bound := (requests (stopAt 1) (stopAt 2) ⟨trivial, trivial⟩
      ⟨trivial, trivial⟩ apart).mp same
    exact absurd (congrArg (fun bound => bound.2.2.1) bound) (by decide)
  · have apart := @injOn_of_listed spelledHash [planBytes (failedPlan ⟨1, by decide⟩),
      planBytes (failedPlan ⟨2, by decide⟩)] {planBytes (failedPlan ⟨1, by decide⟩),
        planBytes (failedPlan ⟨2, by decide⟩)} (by decide +kernel)
      (by rintro bytes (rfl | rfl) <;> simp)
    have request := plans _ _ (by unfold PlanAdmitted; decide) (by unfold PlanAdmitted; decide)
      apart same
    exact absurd request.2.2.2.1 (by decide)
  · have apart := @injOn_of_listed spelledHash [(evidenceOf .started).bytes,
      (evidenceOf .unknown).bytes] {(evidenceOf .started).bytes, (evidenceOf .unknown).bytes}
      (by decide +kernel) (by rintro bytes (rfl | rfl) <;> simp)
    have durable := evidences _ _ apart same
    exact absurd (congrArg (fun durable => durable.2.1) durable) (by decide)
  · have apart := @injOn_of_listed spelledHash [(recoverWith .abandon).bytes spelledHash,
      (recoverWith (.markFailed .timeout 3)).bytes spelledHash,
      (evidenceOf .started).bytes] {(recoverWith .abandon).bytes spelledHash,
      (recoverWith (.markFailed .timeout 3)).bytes spelledHash,
      (evidenceOf .started).bytes, (evidenceOf .started).bytes} (by decide +kernel)
      (by rintro bytes (rfl | rfl | rfl | rfl) <;> simp)
    have bound := recoveries _ _ _ _ _ _ _ _ _ _ apart same
    exact absurd bound.2.1 (by decide)

/-- A definition over an empty manifest. -/
def nightlyDefinition : DefinitionIdentity where
  jobName := some ⟨"nightly", Eq.refl true⟩
  revision := ⟨"r1", Eq.refl true⟩
  manifestFormat := 1
  manifestDigest := spelledHash []
  canonicalManifest := []

def forkUnder (operationId : OperationId) : ForkRequest where
  operationId
  sourceExecutionId := 7
  sourceVersion := 2
  target := ⟨⟨"nightly", Eq.refl true⟩, nightlyDefinition, ⟨"artifact", Eq.refl true⟩⟩
  parameters := ∅
  contextTransform := none

/-- One fork asked for under two operations is digested alike. -/
theorem fork_operation_unbound :
    RequestAdmitted spelledSerde
        (.fork ⟨"operator", by decide⟩ (forkUnder ⟨"fork-1", by decide⟩)) ∧
      RequestAdmitted spelledSerde
        (.fork ⟨"operator", by decide⟩ (forkUnder ⟨"fork-2", by decide⟩)) ∧
      Set.InjOn spelledHash {bytes | bytes ∈
        (OperatorRequest.fork ⟨"operator", by decide⟩
          (forkUnder ⟨"fork-1", by decide⟩)).hashed spelledHash ++
        (OperatorRequest.fork ⟨"operator", by decide⟩
          (forkUnder ⟨"fork-2", by decide⟩)).hashed spelledHash} ∧
      (OperatorRequest.fork ⟨"operator", by decide⟩
          (forkUnder ⟨"fork-1", by decide⟩)).digest spelledHash =
        (OperatorRequest.fork ⟨"operator", by decide⟩
          (forkUnder ⟨"fork-2", by decide⟩)).digest spelledHash ∧
      (OperatorRequest.fork ⟨"operator", by decide⟩
          (forkUnder ⟨"fork-1", by decide⟩)).arguments ≠
        (OperatorRequest.fork ⟨"operator", by decide⟩
          (forkUnder ⟨"fork-2", by decide⟩)).arguments := by
  have admitted : ∀ operationId, RequestAdmitted spelledSerde
      (.fork ⟨"operator", by decide⟩ (forkUnder operationId)) := by
    intro operationId
    refine ⟨trivial, ⟨rfl, rfl⟩, rfl, ?_⟩
    intro entry member
    have empty : (forkUnder operationId).parameters.toList = [] :=
      Std.ExtTreeMap.toList_eq_nil_iff.mpr rfl
    rw [empty] at member
    cases member
  refine ⟨admitted _, admitted _, ?_, OperatorRequest.digest_of_bound rfl, ?_⟩
  · exact injOn_of_listed (by decide +kernel) (fun _ member => member)
  · intro same
    have operations := congrArg ForkRequest.operationId (RequestArguments.fork.inj same)
    exact absurd operations (by decide)

end Instances

end OxideBatch.Service
