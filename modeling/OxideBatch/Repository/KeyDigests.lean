import OxideBatch.Lib.Legible
import OxideBatch.Repository.Records

/-! The bytes behind the identities that are hashed: the key of a job instance, the
parameters a flow starts from, and the key of a retry. -/

namespace OxideBatch.Repository

open OxideBatch.Core OxideBatch.Plan OxideBatch.Lib
open Std (ExtTreeMap)

section Encodings

variable {Hash : Type} (sha : List UInt8 → Hash)

def maxParameterStringBytes : Nat := 64 * 1024

/-- What the types of the values admit: bounded strings and 64-bit integers. -/
def ParameterValue.Admitted : ParameterValue → Prop
  | .string value => value.utf8ByteSize ≤ maxParameterStringBytes
  | .signed value => -2 ^ 63 ≤ value ∧ value < 2 ^ 63
  | .unsigned value => value < u64Limit
  | .bool _ => True

instance : DecidablePred ParameterValue.Admitted
  | .string value => inferInstanceAs (Decidable (value.utf8ByteSize ≤ maxParameterStringBytes))
  | .signed value => inferInstanceAs (Decidable (-2 ^ 63 ≤ value ∧ value < 2 ^ 63))
  | .unsigned value => inferInstanceAs (Decidable (value < u64Limit))
  | .bool _ => inferInstanceAs (Decidable True)

/-- `i64::to_be_bytes`, in two's complement. -/
def signedBytes (value : Int) : List UInt8 := beBytes 8 (value % 2 ^ 64).toNat

/-- The tag of a value and its content; a string stands behind its length in `width` bytes. -/
def parameterBytes (width : Nat) : ParameterValue → List UInt8
  | .string value => 1 :: prefixed width (textBytes value)
  | .signed value => 2 :: signedBytes value
  | .unsigned value => 3 :: beBytes 8 value
  | .bool value => [4, if value then 1 else 0]

/-- One parameter as `JobParameters::flow_input_digest` writes it: its role stands
between its name and its value. -/
def flowParameterBytes (entry : ParameterName × JobParameter) : List UInt8 :=
  prefixed 8 (textBytes entry.1.value) ++
    (if entry.2.identifying then 1 else 0) :: parameterBytes 8 entry.2.value

def JobParameters.flowInputBytes (parameters : JobParameters) : List UInt8 :=
  textBytes "oxide-batch.flow-parameters.v1\x00" ++ parameters.toList.flatMap flowParameterBytes

def JobParameters.flowInputDigest (parameters : JobParameters) : Hash :=
  sha (JobParameters.flowInputBytes parameters)

/-- One identifying parameter as `JobInstanceKey::digest` writes it. -/
def identifyingBytes (entry : ParameterName × ParameterValue) : List UInt8 :=
  prefixed 4 (textBytes entry.1.value) ++ parameterBytes 4 entry.2

/-- The layout of version 1. -/
def JobInstanceKey.bytes (key : JobInstanceKey) : List UInt8 :=
  1 :: (prefixed 4 (textBytes key.jobName.value) ++
    key.identifyingParameters.flatMap identifyingBytes)

def JobInstanceKey.digest (key : JobInstanceKey) : Hash := sha key.bytes

/-- The 32 bytes of a digest. -/
def digestBytes (digest : Digest) : List UInt8 := beBytes 32 digest.val

/-- What `RetryKey::derive` hashes. The name of the phase has no length before it; a zero
closes it. -/
def retryKeyBytes (definitionDigest : Digest) (stepName : StepName) (phase : FaultPhase)
    (checkpointDigest : Digest) (ordinal : Fin u64Limit) : List UInt8 :=
  textBytes "oxide-batch/retry-key/1" ++ (digestBytes definitionDigest ++
    (prefixed 8 (textBytes stepName.value) ++ (textBytes phase.asStr ++
      0 :: (digestBytes checkpointDigest ++ beBytes 8 ordinal.val))))

/-- `RetryKey::derive`. -/
def RetryKey.derive (definitionDigest : Digest) (stepName : StepName) (phase : FaultPhase)
    (checkpointDigest : Digest) (ordinal : Fin u64Limit) : Hash :=
  sha (retryKeyBytes definitionDigest stepName phase checkpointDigest ordinal)

end Encodings

section Reading

theorem Token.value_injective {maxBytes : Nat} :
    Function.Injective (Token.value : Token maxBytes → String) := by
  intro left right same
  cases left
  cases right
  cases same
  rfl

theorem Token.utf8ByteSize_le {maxBytes : Nat} (token : Token maxBytes) :
    token.value.utf8ByteSize ≤ maxBytes := by
  have valid := token.valid
  simp only [validText, Bool.and_eq_true, decide_eq_true_eq] at valid
  exact valid.1.1.1.2

/-- A validated name behind a length wide enough for it. -/
theorem legible_token {width maxBytes : Nat} (wide : maxBytes < 256 ^ width) :
    Legible (fun _ : Token maxBytes => True) (fun token => prefixed width (textBytes token.value)) :=
  ((legible_text width).comap Token.value_injective).mono fun token _ =>
    Nat.lt_of_le_of_lt (Token.utf8ByteSize_le token) wide

theorem legible_digest : Legible (fun _ : Digest => True) digestBytes :=
  ((Legible.number 32).comap Fin.val_injective).mono fun digest _ =>
    Nat.lt_of_lt_of_eq digest.isLt (by decide)

private theorem legible_signed :
    Legible (fun value : Int => -2 ^ 63 ≤ value ∧ value < 2 ^ 63) signedBytes := by
  intro left right rest rest' within within' same
  obtain ⟨residues, rests⟩ := Legible.number 8 (by omega) (by omega) same
  exact ⟨by omega, rests⟩

private theorem legible_parameter {width : Nat} (wide : maxParameterStringBytes < 256 ^ width) :
    Legible ParameterValue.Admitted (parameterBytes width) := by
  intro left right rest rest' within within' same
  -- The tags tell the kinds apart.
  cases left <;> cases right <;>
    simp only [parameterBytes, List.cons_append, List.cons.injEq, List.nil_append] at same
  case string.string left right =>
    obtain ⟨texts, rests⟩ := legible_text width (Nat.lt_of_le_of_lt within wide)
      (Nat.lt_of_le_of_lt within' wide) same.2
    exact ⟨congrArg _ texts, rests⟩
  case signed.signed left right =>
    obtain ⟨values, rests⟩ := legible_signed within within' same.2
    exact ⟨congrArg _ values, rests⟩
  case unsigned.unsigned left right =>
    obtain ⟨values, rests⟩ := Legible.number 8 within within' same.2
    exact ⟨congrArg _ values, rests⟩
  case bool.bool left right =>
    obtain ⟨_, flags, rests⟩ := same
    cases left <;> cases right <;> first | exact ⟨rfl, rests⟩ | cases flags
  all_goals exact absurd same.1 (by decide)

private theorem legible_flowParameter :
    Legible (fun entry => entry.2.value.Admitted) flowParameterBytes := by
  intro left right rest rest' within within' same
  obtain ⟨name, value, identifying⟩ := left
  obtain ⟨name', value', identifying'⟩ := right
  simp only [flowParameterBytes, List.append_assoc, List.cons_append] at same
  obtain ⟨names, behind⟩ := legible_token (by decide) trivial trivial same
  obtain ⟨roles, behind⟩ := List.cons.inj behind
  obtain ⟨values, rests⟩ := legible_parameter (by decide) within within' behind
  have flags : identifying = identifying' := by
    cases identifying <;> cases identifying' <;> first | rfl | cases roles
  cases names
  cases flags
  cases values
  exact ⟨rfl, rests⟩

private theorem legible_identifying : Legible (fun entry => entry.2.Admitted) identifyingBytes :=
  ((legible_token (by decide)).both (legible_parameter (by decide))).mono
    fun _ admitted => ⟨trivial, admitted⟩

private theorem textBytes_phase_closed (phase : FaultPhase) : 0 ∉ textBytes phase.asStr := by
  have clear : (phase.asStr.toList.all fun character => character.toNat != 0) = true := by
    cases phase <;> rfl
  exact zero_notMem_textBytes fun character member =>
    bne_iff_ne.mp (List.all_eq_true.mp clear character member)

theorem FaultPhase.asStr_injective : Function.Injective FaultPhase.asStr := by
  intro left right same
  cases left <;> cases right <;> first | rfl | exact absurd same (by decide)

theorem JobParameters.flowInputBytes_injOn :
    Set.InjOn JobParameters.flowInputBytes
      {parameters | ∀ entry ∈ parameters.toList, entry.2.value.Admitted} := by
  intro left within right within' same
  have written : ∀ entry, flowParameterBytes entry ≠ [] := by
    intro entry empty
    exact List.cons_ne_nil _ _ (List.append_eq_nil_iff.mp empty).2
  have entries := legible_flowParameter.toEnd written within within' (List.append_cancel_left same)
  exact ExtTreeMap.toList_inj.mp entries

theorem JobInstanceKey.bytes_injOn :
    Set.InjOn JobInstanceKey.bytes
      {key | ∀ entry ∈ key.identifyingParameters, entry.2.Admitted} := by
  intro left within right within' same
  obtain ⟨name, entries⟩ := left
  obtain ⟨name', entries'⟩ := right
  obtain ⟨names, behind⟩ := legible_token (by decide) trivial trivial (List.cons.inj same).2
  have written : ∀ entry, identifyingBytes entry ≠ [] := by
    intro entry empty
    exact prefixed_ne_nil (by decide) _ (List.append_eq_nil_iff.mp empty).1
  have lists := legible_identifying.toEnd written within within' behind
  cases names
  cases lists
  rfl

private theorem retryKeyBytes_inj {definition definition' checkpoint checkpoint' : Digest}
    {step step' : StepName} {phase phase' : FaultPhase} {ordinal ordinal' : Fin u64Limit}
    (same : retryKeyBytes definition step phase checkpoint ordinal =
      retryKeyBytes definition' step' phase' checkpoint' ordinal') :
    definition = definition' ∧ step = step' ∧ phase = phase' ∧ checkpoint = checkpoint' ∧
      ordinal = ordinal' := by
  unfold retryKeyBytes at same
  obtain ⟨definitions, behind⟩ := legible_digest trivial trivial (List.append_cancel_left same)
  obtain ⟨steps, behind⟩ := legible_token (by decide) trivial trivial behind
  obtain ⟨phases, behind⟩ := terminated_inj (textBytes_phase_closed phase)
    (textBytes_phase_closed phase') behind
  obtain ⟨checkpoints, behind⟩ := legible_digest trivial trivial behind
  have ordinals := beBytes_inj ordinal.isLt ordinal'.isLt behind
  exact ⟨definitions, steps, FaultPhase.asStr_injective (textBytes_injective phases), checkpoints,
    Fin.ext ordinals⟩

end Reading

/-- Where nothing collides, the three identities tell apart what they are made of. -/
theorem identities_injective {Hash : Type} {sha : List UInt8 → Hash}
    (injective : Function.Injective sha) :
    (∀ left right : JobInstanceKey,
      (∀ entry ∈ left.identifyingParameters, entry.2.Admitted) →
      (∀ entry ∈ right.identifyingParameters, entry.2.Admitted) →
      left.digest sha = right.digest sha → left = right) ∧
    (∀ left right : JobParameters,
      (∀ entry ∈ left.toList, entry.2.value.Admitted) →
      (∀ entry ∈ right.toList, entry.2.value.Admitted) →
      JobParameters.flowInputDigest sha left = JobParameters.flowInputDigest sha right →
      left = right) ∧
    ∀ (definition definition' : Digest) (step step' : StepName) (phase phase' : FaultPhase)
      (checkpoint checkpoint' : Digest) (ordinal ordinal' : Fin u64Limit),
      RetryKey.derive sha definition step phase checkpoint ordinal =
        RetryKey.derive sha definition' step' phase' checkpoint' ordinal' →
      definition = definition' ∧ step = step' ∧ phase = phase' ∧ checkpoint = checkpoint' ∧
        ordinal = ordinal' := by
  refine ⟨?_, ?_, ?_⟩
  · intro left right within within' same
    exact JobInstanceKey.bytes_injOn within within' (injective same)
  · intro left right within within' same
    exact JobParameters.flowInputBytes_injOn within within' (injective same)
  · intro definition definition' step step' phase phase' checkpoint checkpoint' ordinal ordinal' same
    exact retryKeyBytes_inj (injective same)

/-- A single parameter under a fixed name. -/
def countParameters (value : ParameterValue) (identifying : Bool) : JobParameters :=
  ExtTreeMap.ofList [(⟨"count", Eq.refl true⟩, ⟨value, identifying⟩)] compare

theorem kinds_and_roles_are_told_apart :
    (JobInstanceKey.new ⟨"load", by decide⟩ (countParameters (.signed 1) true)).digest id ≠
      (JobInstanceKey.new ⟨"load", by decide⟩ (countParameters (.unsigned 1) true)).digest id ∧
    JobParameters.flowInputDigest id (countParameters (.signed 1) true) ≠
      JobParameters.flowInputDigest id (countParameters (.signed 1) false) ∧
    RetryKey.derive id 1 ⟨"load", by decide⟩ .read 0 ⟨1, by decide⟩ ≠
      RetryKey.derive id 1 ⟨"load", by decide⟩ .write 0 ⟨1, by decide⟩ := by
  obtain ⟨keys, inputs, retries⟩ := identities_injective Function.injective_id
  refine ⟨fun same => ?_, fun same => ?_, fun same => ?_⟩
  · have equal := keys _ _ (by decide +kernel) (by decide +kernel) same
    exact absurd (congrArg JobInstanceKey.identifyingParameters equal) (by decide +kernel)
  · have equal := inputs _ _ (by decide +kernel) (by decide +kernel) same
    exact absurd (congrArg ExtTreeMap.toList equal) (by decide +kernel)
  · exact absurd (retries _ _ _ _ _ _ _ _ _ _ same).2.2.1 (by decide)

end OxideBatch.Repository
