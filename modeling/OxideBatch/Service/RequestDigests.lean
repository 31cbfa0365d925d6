import Mathlib
import OxideBatch.Service.Requests
import OxideBatch.Plan.FaultManifest
import OxideBatch.Plan.Base

/-! What the digests of operator requests, purge plans, and recovery evidence bind: the
canonical bytes are read back field by field. -/

namespace OxideBatch.Service

open OxideBatch.Core OxideBatch.Plan OxideBatch.Repository OxideBatch.Lib

section Fields

theorem digestBytes_injective : Function.Injective digestBytes := fun _ _ same =>
  legible_digest.injOn trivial trivial same

/-- A digest behind its length. -/
theorem legible_digestField :
    Legible (fun _ : Digest => True) (fun digest => prefixed 8 (digestBytes digest)) :=
  ((legible_prefixed 8).comap digestBytes_injective).mono fun _ _ => by
    rw [digestBytes, length_beBytes]
    decide

theorem Token.value_ne_empty {maxBytes : Nat} (token : Token maxBytes) : token.value ≠ "" := by
  intro empty
  have valid := token.valid
  rw [empty] at valid
  simp [validText] at valid

/-- A text that may be missing is written as the empty text; a validated text never is. -/
theorem legible_optionalName {maxBytes : Nat} (wide : maxBytes < 256 ^ 8) :
    Legible (fun _ : Option (Token maxBytes) => True)
      (fun token => prefixed 8 (textBytes ((token.map (·.value)).getD ""))) := by
  have injective : Function.Injective
      (fun token : Option (Token maxBytes) => (token.map (·.value)).getD "") := by
    intro left right same
    cases left with
    | none =>
      cases right with
      | none => rfl
      | some right => exact absurd same.symm (Token.value_ne_empty right)
    | some left =>
      cases right with
      | none => exact absurd same (Token.value_ne_empty left)
      | some right => exact congrArg some (Repository.Token.value_injective same)
  refine ((legible_text 8).comap injective).mono fun token _ => ?_
  cases token with
  | none => exact (by decide : ("" : String).utf8ByteSize < 256 ^ 8)
  | some token => exact Nat.lt_of_le_of_lt (Token.utf8ByteSize_le token) wide

/-- Names of the source, one of a short list. -/
theorem legible_label {Label : Type} {text : Label → String}
    (short : ∀ label, (text label).utf8ByteSize < 256 ^ 8) (injective : Function.Injective text) :
    Legible (fun _ : Label => True) (fun label => prefixed 8 (textBytes (text label))) :=
  ((legible_text 8).comap injective).mono fun label _ => short label

theorem legible_id {kind : IdentifierKind} :
    Legible (fun _ : Id kind => True) (fun id => beBytes 8 id.get) :=
  ((Legible.number 8).comap Id.get_injective).mono fun id _ => id.within

theorem legible_version :
    Legible (fun _ : ExecutionVersion => True) (fun version => beBytes 8 version.val) :=
  ((Legible.number 8).comap Fin.val_injective).mono fun version _ => version.isLt

theorem legible_flag : Legible (fun _ : Bool => True) (fun flag => beBytes 8 flag.toNat) := by
  refine ((Legible.number 8).comap ?_).mono fun flag _ => ?_
  · intro left right same
    cases left <;> cases right <;> first | rfl | cases same
  · cases flag <;> decide

private theorem statusAsStr_injective : Function.Injective BatchStatus.asStr := by
  intro left right same
  cases left <;> cases right <;> first | rfl | simp [BatchStatus.asStr] at same

theorem legible_status :
    Legible (fun _ : BatchStatus => True) (fun status => prefixed 8 (textBytes status.asStr)) :=
  legible_label (fun status => by cases status <;> decide) statusAsStr_injective

end Fields

section Plans

/-- What the types of a plan's request admit: a minimum age in 64-bit seconds. -/
def PlanAdmitted (plan : PurgePlan) : Prop := plan.request.minimumAge < u64Limit * 10 ^ 9

/-- One candidate: its identifiers and its version. -/
def candidateBytes (candidate : PurgeCandidate) : List UInt8 :=
  beBytes 8 candidate.jobInstanceId.get ++
    (beBytes 8 candidate.jobExecutionId.get ++ beBytes 8 candidate.version.val)

private theorem planBytes_eq (plan : PurgePlan) :
    planBytes plan = CanonicalBytes.new "oxide-batch.retention-plan.v1" ++
      (prefixed 8 (textBytes plan.request.jobName.value) ++
        (plan.request.statuses.statuses.toList.flatMap
            (fun status => prefixed 8 (textBytes status.asStr)) ++
          (beBytes 8 (plan.request.minimumAge / 10 ^ 9) ++
            (beBytes 8 plan.request.batch.get ++ plan.candidates.flatMap candidateBytes)))) := by
  have candidates : ∀ (writer : CanonicalBytes) (candidate : PurgeCandidate),
      ((writer.pushU64 candidate.jobInstanceId.get).pushU64
        candidate.jobExecutionId.get).pushU64 candidate.version.val =
          writer ++ candidateBytes candidate := by
    intro writer candidate
    simp only [CanonicalBytes.pushU64_eq, candidateBytes, List.append_assoc]
  have statuses : ∀ (writer : CanonicalBytes) (status : BatchStatus),
      writer.pushStr status.asStr = writer ++ prefixed 8 (textBytes status.asStr) :=
    fun writer status => writer.pushStr_eq _
  unfold planBytes
  rw [CanonicalBytes.foldl_writes _ candidates, CanonicalBytes.foldl_writes _ statuses]
  simp only [CanonicalBytes.pushU64_eq, CanonicalBytes.pushStr_eq, List.append_assoc]

private theorem legible_candidate : Legible (fun _ : PurgeCandidate => True) candidateBytes := by
  intro left right rest rest' _ _ same
  simp only [candidateBytes, List.append_assoc] at same
  obtain ⟨instances, behind⟩ := legible_id trivial trivial same
  obtain ⟨executions, behind⟩ := legible_id trivial trivial behind
  obtain ⟨versions, rests⟩ := legible_version trivial trivial behind
  cases left
  cases right
  cases instances
  cases executions
  cases versions
  exact ⟨rfl, rests⟩

/-- An age of at least an hour is not the length of the name of a status. -/
private theorem age_closes {seconds : Nat} (aged : 3600 ≤ seconds) (within : seconds < 256 ^ 8)
    (status : BatchStatus) (rest behind : List UInt8) :
    beBytes 8 seconds ++ rest ≠ prefixed 8 (textBytes status.asStr) ++ behind := by
  intro same
  have short : (textBytes status.asStr).length ≤ 9 := by
    rw [length_textBytes]
    cases status <;> decide
  unfold prefixed at same
  rw [List.append_assoc, Nat.min_eq_left (by omega)] at same
  obtain ⟨lengths, _⟩ := Legible.number 8 within (by omega) same
  omega

/-- The bytes of a plan are those of its request, by whole seconds, and its candidates. -/
theorem planBytes_inj {left right : PurgePlan} (admitted : PlanAdmitted left)
    (admitted' : PlanAdmitted right) (same : planBytes left = planBytes right) :
    left.request.jobName = right.request.jobName ∧
      left.request.statuses.statuses = right.request.statuses.statuses ∧
      left.request.minimumAge / 10 ^ 9 = right.request.minimumAge / 10 ^ 9 ∧
      left.request.batch = right.request.batch ∧ left.candidates = right.candidates := by
  have aged : ∀ plan : PurgePlan, 3600 ≤ plan.request.minimumAge / 10 ^ 9 := by
    intro plan
    exact (Nat.le_div_iff_mul_le (by decide)).mpr plan.request.aged
  have seconds : ∀ plan, PlanAdmitted plan → plan.request.minimumAge / 10 ^ 9 < 256 ^ 8 := by
    intro plan within
    exact (Nat.div_lt_iff_lt_mul (by decide)).mpr within
  have batches : ∀ plan : PurgePlan, plan.request.batch.get < 256 ^ 8 := by
    intro plan
    have bound := plan.request.batch.valid.2
    unfold maxPurgeBatch at bound
    omega
  have written : ∀ candidate, candidateBytes candidate ≠ [] := by
    intro candidate empty
    have none := congrArg List.length empty
    simp [candidateBytes] at none
  rw [planBytes_eq, planBytes_eq] at same
  obtain ⟨names, behind⟩ := legible_token (by decide) trivial trivial (List.append_cancel_left same)
  obtain ⟨statuses, behind⟩ := legible_status.upTo (fun _ _ => trivial) (fun _ _ => trivial)
    (fun status rest _ => age_closes (aged left) (seconds left admitted) status _ rest)
    (fun status rest _ => age_closes (aged right) (seconds right admitted') status _ rest) behind
  obtain ⟨ages, behind⟩ := Legible.number 8 (seconds left admitted) (seconds right admitted') behind
  obtain ⟨bounds, behind⟩ := Legible.number 8 (batches left) (batches right) behind
  refine ⟨names, Std.ExtTreeSet.toList_inj.mp statuses, ages, ?_,
    legible_candidate.toEnd written (fun _ _ => trivial) (fun _ _ => trivial) behind⟩
  revert bounds
  cases left.request.batch
  cases right.request.batch
  rintro rfl
  rfl

end Plans

section Evidence

theorem OwnerObservation.code_injective : Function.Injective OwnerObservation.code := by
  intro left right same
  cases left <;> cases right <;> first | rfl | simp [OwnerObservation.code] at same

private theorem legible_owner :
    Legible (fun _ : OwnerObservation => True) (fun owner => prefixed 8 (textBytes owner.code)) :=
  legible_label (fun owner => by cases owner <;> decide) OwnerObservation.code_injective

/-- A time on its side of the epoch. -/
def timeBytes (value : StdSystemTime) : List UInt8 := CanonicalBytes.pushSystemTime [] value

private theorem pushSystemTime_eq (writer : CanonicalBytes) (value : StdSystemTime) :
    writer.pushSystemTime value = writer ++ timeBytes value := by
  unfold timeBytes CanonicalBytes.pushSystemTime CanonicalBytes.pushDuration
  split <;> simp only [CanonicalBytes.pushStr_eq, CanonicalBytes.pushU64_eq, List.append_assoc,
    List.nil_append]

private theorem legible_time : Legible (fun _ : StdSystemTime => True) timeBytes := by
  intro left right rest rest' _ _ same
  have sides : ∀ value : StdSystemTime, timeBytes value =
      prefixed 8 (textBytes (if 0 ≤ value.nanos then "AFTER_EPOCH" else "BEFORE_EPOCH")) ++
        (beBytes 8 (value.nanos.natAbs / 10 ^ 9) ++ beBytes 8 (value.nanos.natAbs % 10 ^ 9)) := by
    intro value
    unfold timeBytes CanonicalBytes.pushSystemTime CanonicalBytes.pushDuration
    split <;> simp only [CanonicalBytes.pushStr_eq, CanonicalBytes.pushU64_eq, List.append_assoc,
      List.nil_append]
  have short : ∀ value : StdSystemTime,
      (if 0 ≤ value.nanos then "AFTER_EPOCH" else "BEFORE_EPOCH").utf8ByteSize < 256 ^ 8 := by
    intro value
    split <;> decide
  have seconds : ∀ value : StdSystemTime, value.nanos.natAbs / 10 ^ 9 < 256 ^ 8 :=
    fun value => (Nat.div_lt_iff_lt_mul (by decide)).mpr value.within
  rw [sides, sides, List.append_assoc, List.append_assoc, List.append_assoc,
    List.append_assoc] at same
  obtain ⟨side, behind⟩ := legible_text 8 (short left) (short right) same
  obtain ⟨wholes, behind⟩ := Legible.number 8 (seconds left) (seconds right) behind
  obtain ⟨parts, rests⟩ := Legible.number 8 (by omega) (by omega) behind
  have signs : 0 ≤ left.nanos ↔ 0 ≤ right.nanos := by
    constructor
    · intro after
      by_contra before
      rw [if_pos after, if_neg before] at side
      exact absurd side (by decide)
    · intro after
      by_contra before
      rw [if_neg before, if_pos after] at side
      exact absurd side (by decide)
  cases left
  cases right
  simp only [StdSystemTime.mk.injEq]
  exact ⟨by dsimp only at wholes parts signs; omega, rests⟩

/-- The fields of a checkpoint that its evidence binds. -/
def checkpointFields (checkpoint : StateEnvelopeDescriptor) :
    UInt16 × StateSchemaId × StateSchemaVersion × UInt64 :=
  (checkpoint.formatVersion, checkpoint.schemaId, checkpoint.schemaVersion, checkpoint.encodedLen)

private theorem positive_get_injective : Function.Injective Positive.get := by
  intro left right same
  cases left
  cases right
  cases same
  rfl

theorem legible_schemaVersion :
    Legible (fun _ : StateSchemaVersion => True) (fun version => beBytes 8 version.get) :=
  ((Legible.number 8).comap positive_get_injective).mono fun version _ =>
    Nat.lt_trans version.within (by decide)

/-- What stands for the latest step, or for none. -/
def stepBytes (step : Option RecoveryStepEvidence) : List UInt8 :=
  CanonicalBytes.pushLatestStep [] step

def checkpointBytes (checkpoint : Option StateEnvelopeDescriptor) : List UInt8 :=
  CanonicalBytes.pushCheckpoint [] checkpoint

private theorem pushCheckpoint_eq (writer : CanonicalBytes)
    (checkpoint : Option StateEnvelopeDescriptor) :
    writer.pushCheckpoint checkpoint = writer ++ checkpointBytes checkpoint := by
  cases checkpoint <;>
    simp only [checkpointBytes, CanonicalBytes.pushCheckpoint, CanonicalBytes.pushStr_eq,
      CanonicalBytes.pushU64_eq, List.append_assoc, List.nil_append]

private theorem pushLatestStep_eq (writer : CanonicalBytes) (step : Option RecoveryStepEvidence) :
    writer.pushLatestStep step = writer ++ stepBytes step := by
  cases step <;>
    simp only [stepBytes, CanonicalBytes.pushLatestStep, pushCheckpoint_eq,
      CanonicalBytes.pushStr_eq, CanonicalBytes.pushU64_eq, List.append_assoc, List.nil_append]

private theorem beBytes_head : ∀ value < 256, (beBytes 8 value).head? = some 0 := by decide +kernel

/-- A number with a short field behind it is not a label: where the label has its text,
the field has the zeros of its length. -/
private theorem label_apart {number : Nat} {first : UInt8} {field label behind behind' : List UInt8}
    (within : number < 256 ^ 8) (short : field.length < 256) (sized : label.length < 255)
    (begins : first ≠ 0) :
    beBytes 8 number ++ (prefixed 8 field ++ behind) ≠ prefixed 8 (first :: label) ++ behind' := by
  intro same
  unfold prefixed at same
  rw [List.append_assoc, List.append_assoc, Nat.min_eq_left (by omega),
    Nat.min_eq_left (by rw [List.length_cons]; omega)] at same
  obtain ⟨_, texts⟩ := Legible.number 8 within (by rw [List.length_cons]; omega) same
  have heads := congrArg List.head? texts
  rw [List.head?_append, beBytes_head _ short] at heads
  exact begins (Option.some.inj heads).symm

private theorem step_apart {id : StepExecutionId} {status : BatchStatus}
    {behind behind' : List UInt8} :
    beBytes 8 id.get ++ (prefixed 8 (textBytes status.asStr) ++ behind) ≠
      prefixed 8 (textBytes "NO_STEP") ++ behind' :=
  @label_apart _ 78 _ _ _ _ id.within (by rw [length_textBytes]; cases status <;> decide)
    (by decide : (textBytes "O_STEP").length < 255) (by decide)

private theorem checkpoint_apart {format : UInt16} {schema : StateSchemaId}
    {behind behind' : List UInt8} :
    beBytes 8 format.toNat ++ (prefixed 8 (textBytes schema.value) ++ behind) ≠
      prefixed 8 (textBytes "NO_CHECKPOINT") ++ behind' := by
  have small := Token.utf8ByteSize_le schema
  exact @label_apart _ 78 _ _ _ _ (Nat.lt_trans format.toNat_lt (by decide))
    (by rw [length_textBytes]; omega) (by decide : (textBytes "O_CHECKPOINT").length < 255)
    (by decide)

/-- A checkpoint is read back but for its kind. -/
private theorem checkpointBytes_cut {left right : Option StateEnvelopeDescriptor}
    {rest rest' : List UInt8}
    (same : checkpointBytes left ++ rest = checkpointBytes right ++ rest') :
    left.map checkpointFields = right.map checkpointFields ∧ rest = rest' := by
  have written : ∀ checkpoint : StateEnvelopeDescriptor, checkpointBytes (some checkpoint) =
      beBytes 8 checkpoint.formatVersion.toNat ++
        (prefixed 8 (textBytes checkpoint.schemaId.value) ++
          (beBytes 8 checkpoint.schemaVersion.get ++ beBytes 8 checkpoint.encodedLen.toNat)) := by
    intro checkpoint
    simp only [checkpointBytes, CanonicalBytes.pushCheckpoint, CanonicalBytes.pushStr_eq,
      CanonicalBytes.pushU64_eq, List.append_assoc, List.nil_append]
  have absent : checkpointBytes none = prefixed 8 (textBytes "NO_CHECKPOINT") :=
    CanonicalBytes.pushStr_eq [] _
  cases left with
  | none =>
    cases right with
    | none =>
      exact ⟨rfl, List.append_cancel_left same⟩
    | some right =>
      rw [written, absent, List.append_assoc, List.append_assoc] at same
      exact absurd same.symm checkpoint_apart
  | some left =>
    cases right with
    | none =>
      rw [written, absent, List.append_assoc, List.append_assoc] at same
      exact absurd same checkpoint_apart
    | some right =>
      simp only [written, List.append_assoc] at same
      obtain ⟨formats, behind⟩ := Legible.number 8 (Nat.lt_trans left.formatVersion.toNat_lt
        (by decide)) (Nat.lt_trans right.formatVersion.toNat_lt (by decide)) same
      obtain ⟨schemas, behind⟩ := legible_token (by decide) trivial trivial behind
      obtain ⟨versions, behind⟩ := legible_schemaVersion trivial trivial behind
      obtain ⟨lengths, rests⟩ := Legible.number 8 left.encodedLen.toNat_lt
        right.encodedLen.toNat_lt behind
      refine ⟨congrArg some ?_, rests⟩
      unfold checkpointFields
      rw [UInt16.toNat_inj.mp formats, schemas, versions, UInt64.toNat_inj.mp lengths]

/-- The durable fields of a step, with a checkpoint but for its kind. -/
def stepFields (step : RecoveryStepEvidence) :
    StepExecutionId × BatchStatus ×
      Option (UInt16 × StateSchemaId × StateSchemaVersion × UInt64) :=
  (step.id, step.status, step.checkpoint.map checkpointFields)

private theorem stepBytes_cut {left right : Option RecoveryStepEvidence} {rest rest' : List UInt8}
    (same : stepBytes left ++ rest = stepBytes right ++ rest') :
    left.map stepFields = right.map stepFields ∧ rest = rest' := by
  have written : ∀ step : RecoveryStepEvidence, stepBytes (some step) =
      beBytes 8 step.id.get ++ (prefixed 8 (textBytes step.status.asStr) ++
        checkpointBytes step.checkpoint) := by
    intro step
    simp only [stepBytes, CanonicalBytes.pushLatestStep, pushCheckpoint_eq,
      CanonicalBytes.pushStr_eq, CanonicalBytes.pushU64_eq, List.append_assoc, List.nil_append]
  have absent : stepBytes none = prefixed 8 (textBytes "NO_STEP") := CanonicalBytes.pushStr_eq [] _
  cases left with
  | none =>
    cases right with
    | none => exact ⟨rfl, List.append_cancel_left same⟩
    | some right =>
      rw [written, absent, List.append_assoc, List.append_assoc] at same
      exact absurd same.symm step_apart
  | some left =>
    cases right with
    | none =>
      rw [written, absent, List.append_assoc, List.append_assoc] at same
      exact absurd same step_apart
    | some right =>
      simp only [written, List.append_assoc] at same
      obtain ⟨ids, behind⟩ := legible_id trivial trivial same
      obtain ⟨statuses, behind⟩ := legible_status trivial trivial behind
      obtain ⟨checkpoints, rests⟩ := checkpointBytes_cut behind
      refine ⟨congrArg some ?_, rests⟩
      unfold stepFields
      rw [ids, statuses, checkpoints]

/-- What evidence says of the durable state: all but the clocks, and a checkpoint but for
its kind. -/
def RecoveryEvidence.durable (evidence : RecoveryEvidence) :=
  (evidence.snapshot.executionId, evidence.snapshot.status, evidence.snapshot.attempt,
    evidence.snapshot.version, evidence.snapshot.owner, evidence.snapshot.updatedAt,
    evidence.snapshot.latestStep.map stepFields, evidence.snapshot.markers)

theorem RecoveryEvidence.bytes_eq (evidence : RecoveryEvidence) :
    evidence.bytes = CanonicalBytes.new "oxide-batch.recovery-evidence.v1" ++
      (beBytes 8 evidence.snapshot.executionId.get ++
        (prefixed 8 (textBytes evidence.snapshot.status.asStr) ++
          (beBytes 8 evidence.snapshot.attempt.toNat ++
            (beBytes 8 evidence.snapshot.version.val ++
              (prefixed 8 (textBytes evidence.snapshot.owner.code) ++
                (timeBytes evidence.snapshot.updatedAt ++
                  (stepBytes evidence.snapshot.latestStep ++
                    (beBytes 8 evidence.snapshot.markers.unknownCommit.toNat ++
                      (beBytes 8 evidence.snapshot.markers.completedPartition.toNat ++
                        (beBytes 8 evidence.snapshot.markers.committedFlowDecision.toNat ++
                          beBytes 8
                            evidence.snapshot.markers.ambiguousExternalEffect.toNat)))))))))) := by
  simp only [RecoveryEvidence.bytes, pushLatestStep_eq, pushSystemTime_eq,
    CanonicalBytes.pushStr_eq, CanonicalBytes.pushU64_eq, List.append_assoc]

theorem RecoveryEvidence.bytes_inj {left right : RecoveryEvidence}
    (same : left.bytes = right.bytes) : left.durable = right.durable := by
  rw [RecoveryEvidence.bytes_eq, RecoveryEvidence.bytes_eq] at same
  obtain ⟨ids, behind⟩ := legible_id trivial trivial (List.append_cancel_left same)
  obtain ⟨statuses, behind⟩ := legible_status trivial trivial behind
  obtain ⟨attempts, behind⟩ := Legible.number 8
    (Nat.lt_trans left.snapshot.attempt.toNat_lt (by decide))
    (Nat.lt_trans right.snapshot.attempt.toNat_lt (by decide)) behind
  obtain ⟨versions, behind⟩ := legible_version trivial trivial behind
  obtain ⟨owners, behind⟩ := legible_owner trivial trivial behind
  obtain ⟨times, behind⟩ := legible_time trivial trivial behind
  obtain ⟨steps, behind⟩ := stepBytes_cut behind
  obtain ⟨commits, behind⟩ := legible_flag trivial trivial behind
  obtain ⟨partitions, behind⟩ := legible_flag trivial trivial behind
  obtain ⟨decisions, behind⟩ := legible_flag trivial trivial behind
  have effects := legible_flag.injOn trivial trivial behind
  have markers : left.snapshot.markers = right.snapshot.markers := by
    revert commits partitions decisions effects
    cases left.snapshot.markers
    cases right.snapshot.markers
    rintro rfl rfl rfl rfl
    rfl
  unfold RecoveryEvidence.durable
  rw [ids, statuses, UInt32.toNat_inj.mp attempts, versions, owners, times, steps, markers]

end Evidence

section Definitions

/-- The `format` member of a canonical manifest. -/
def declaredFormat (serde : Serde) (canonical : List UInt8) : Option Nat :=
  (serde.fromSlice canonical).bind fun document =>
    (document.asObject.bind (Json.member? "format")).bind Json.asU64

/-- A definition is built over its canonical manifest: the digest is its hash and the format
the one it declares. -/
def Sealed (serde : Serde) (definition : DefinitionIdentity) : Prop :=
  definition.manifestDigest = serde.sha256 definition.canonicalManifest ∧
    declaredFormat serde definition.canonicalManifest = some definition.manifestFormat

private theorem asU64_lt {value : Json} {number : Nat} (read : value.asU64 = some number) :
    number < 256 ^ 8 := by
  cases value with
  | integer value =>
    rw [Json.asU64] at read
    split at read
    · cases read
      omega
    · cases read
  | _ => cases read

private theorem format_lt {serde : Serde} {definition : DefinitionIdentity}
    (sealed : Sealed serde definition) : definition.manifestFormat < 256 ^ 8 := by
  have declared := sealed.2
  unfold declaredFormat at declared
  obtain ⟨document, _, found⟩ := Option.bind_eq_some_iff.mp declared
  obtain ⟨value, _, number⟩ := Option.bind_eq_some_iff.mp found
  exact asU64_lt number

/-- A definition but for the job name beside its manifest. -/
def unnamed (definition : DefinitionIdentity) : DefinitionIdentity :=
  { definition with jobName := none }

theorem unnamed_of_digest {serde : Serde} {left right : DefinitionIdentity}
    (sealed : Sealed serde left) (sealed' : Sealed serde right)
    (apart : Set.InjOn serde.sha256 {left.canonicalManifest, right.canonicalManifest})
    (revisions : left.revision = right.revision)
    (digests : left.manifestDigest = right.manifestDigest) : unnamed left = unnamed right := by
  have manifests : left.canonicalManifest = right.canonicalManifest :=
    apart (Set.mem_insert _ _) (Set.mem_insert_of_mem _ rfl)
      (sealed.1.symm.trans (digests.trans sealed'.1))
  have formats : some left.manifestFormat = some right.manifestFormat := by
    rw [← sealed.2, ← sealed'.2, manifests]
  unfold unnamed
  rw [revisions, Option.some.inj formats, digests, manifests]

/-- The revision, the format, and the digest of a definition are read back. -/
theorem definition_cut {serde : Serde} {left right : DefinitionIdentity} {rest rest' : List UInt8}
    (sealed : Sealed serde left) (sealed' : Sealed serde right)
    (same : prefixed 8 (textBytes left.revision.value) ++ (beBytes 8 left.manifestFormat ++
        (prefixed 8 (digestBytes left.manifestDigest) ++ rest)) =
      prefixed 8 (textBytes right.revision.value) ++ (beBytes 8 right.manifestFormat ++
        (prefixed 8 (digestBytes right.manifestDigest) ++ rest'))) :
    left.revision = right.revision ∧ left.manifestDigest = right.manifestDigest ∧ rest = rest' := by
  obtain ⟨revisions, behind⟩ := legible_token (by decide) trivial trivial same
  obtain ⟨_, behind⟩ := Legible.number 8 (format_lt sealed) (format_lt sealed') behind
  obtain ⟨digests, rests⟩ := legible_digestField trivial trivial behind
  exact ⟨revisions, digests, rests⟩

end Definitions

end OxideBatch.Service
