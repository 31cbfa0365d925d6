import OxideBatch.Core.Definition
import OxideBatch.Core.Json
import OxideBatch.Lib.Framing
import OxideBatch.Lib.Upgrades

/-! Bounded, versioned, checksummed component-owned durable state: the envelope, its
constructors, and the migration chains in front of decoding. -/

namespace OxideBatch.Core

open OxideBatch.Lib

namespace Json

mutual

/-- `json_depth`: the nesting depth of a document, its root included. -/
def depth : Json → Nat
  | .array values => 1 + deepest values
  | .object members => 1 + deepestMember members
  | _ => 1

def deepest : List Json → Nat
  | [] => 0
  | value :: values => max value.depth (deepest values)

def deepestMember : List (String × Json) → Nat
  | [] => 0
  | (_, value) :: members => max value.depth (deepestMember members)

end

end Json

theorem Positive.get_injective : Function.Injective Positive.get := by
  intro left right same
  cases left
  cases right
  cases same
  rfl

instance : LinearOrder Positive := LinearOrder.lift' Positive.get Positive.get_injective

/-- `NonZeroU32::new`. -/
def Positive.new (value : UInt32) : Option Positive :=
  if positive : 0 < value.toNat then some ⟨value.toNat, positive, value.toNat_lt⟩ else none

abbrev CodecId := Token 128

abbrev CodecVersion := Positive

/-- `MAXIMUM_BYTES`. -/
def maximumBytes : Nat := 1024 * 1024

/-- `MAXIMUM_DEPTH`. -/
def maximumDepth : Nat := 64

/-- `MAX_UPGRADE_CHAIN`. -/
def maxUpgradeChain : Nat := 64

/-- Resource bounds; neither is zero or above its ceiling. -/
structure StateLimits where
  bytes : Nat
  depth : Nat
  someBytes : 0 < bytes
  someDepth : 0 < depth
  bytesWithin : bytes ≤ maximumBytes
  depthWithin : depth ≤ maximumDepth

/-- The widest limits there are. -/
def StateLimits.ceilings : StateLimits where
  bytes := maximumBytes
  depth := maximumDepth
  someBytes := by decide
  someDepth := by decide
  bytesWithin := Nat.le_refl _
  depthWithin := Nat.le_refl _

theorem defaultDepth_pos : 0 < 16 := by decide

theorem defaultDepth_within : 16 ≤ maximumDepth := by decide

/-- `StateLimits::default`. -/
def StateLimits.default : StateLimits where
  bytes := 64 * 1024
  depth := 16
  someBytes := by decide
  someDepth := defaultDepth_pos
  bytesWithin := by decide
  depthWithin := defaultDepth_within

/-- Limits that allow at least what others allow. -/
def StateLimits.AtLeast (wide narrow : StateLimits) : Prop :=
  narrow.bytes ≤ wide.bytes ∧ narrow.depth ≤ wide.depth

inductive StateCodecError where
  | invalidPayload
  | unsupportedSchemaVersion
  deriving DecidableEq, Repr

/-- The failures of the schema chain, for the kind of state it is walked for. -/
inductive StateError where
  | noUpgradePath (found current : StateSchemaVersion)
  | ambiguousUpgrade (source : StateSchemaVersion)
  | upgradeOvershootsCurrent (target current : StateSchemaVersion)
  | upgradeChainTooLong (maxUpgrades : Nat)
  | tooLarge (maxBytes : Nat)
  | tooDeep (maxDepth : Nat)
  | upgradeProducedInvalidJson
  | payloadNotObject
  | codec (error : StateCodecError)
  deriving DecidableEq

inductive ComponentStateError where
  | emptyCodecId
  | codecIdTooLong (maxBytes : Nat)
  | zeroCodecVersion
  | malformed
  | unknownCodec
  | schemaMismatch
  | unsupportedSchemaVersion (found current : Nat)
  | unsupportedCodecVersion (found current : Nat)
  | externalSchemaMigrationUnsupported (found current : Nat)
  | externalCodecMigrationUnsupported (found current : Nat)
  | noSchemaUpgradePath (found current : Nat)
  | ambiguousSchemaUpgrade (source : Nat)
  | schemaUpgradeOvershootsCurrent (target current : Nat)
  | schemaUpgradeChainTooLong (maxUpgrades : Nat)
  | noCodecUpgradePath (found current : Nat)
  | ambiguousCodecUpgrade (source : Nat)
  | codecUpgradeOvershootsCurrent (target current : Nat)
  | codecUpgradeChainTooLong (maxUpgrades : Nat)
  | checksumAlgorithmUnsupported (algorithm version : UInt16)
  | checksumMismatch
  | tooLarge (maxBytes : Nat)
  | tooDeep (maxDepth : Nat)
  | invalidPayload
  | payloadNotObject
  | externalReferenceMissing
  | codec (error : StateCodecError)
  deriving DecidableEq

/-- Fails where a condition holds. -/
def refuse (condition : Prop) [Decidable condition] (error : ComponentStateError) :
    Except ComponentStateError Unit :=
  if condition then .error error else .ok ()

/-- `ok_or`. -/
def demand {α : Type} (value : Option α) (error : ComponentStateError) :
    Except ComponentStateError α :=
  value.elim (.error error) .ok

/-- `CodecId::new`. -/
def CodecId.new (value : String) : Except ComponentStateError CodecId := do
  refuse (value.toList = []) .emptyCodecId
  refuse (128 < value.utf8ByteSize) (.codecIdTooLong 128)
  demand (Token.new 128 value) .malformed

inductive ChecksumAlgorithm where
  | sha256
  deriving DecidableEq, Repr

namespace ChecksumAlgorithm

/-- `CURRENT`. -/
def current : ChecksumAlgorithm := .sha256

def identifier : ChecksumAlgorithm → UInt16
  | .sha256 => 1

def algorithmVersion : ChecksumAlgorithm → UInt16
  | .sha256 => 1

def resolve (identifier version : UInt16) : Option ChecksumAlgorithm :=
  if identifier = 1 ∧ version = 1 then some .sha256 else none

end ChecksumAlgorithm

/-- A content-identified pointer to state held elsewhere. -/
structure ExternalStateReference where
  contentId : Vector UInt8 32
  encodedLen : UInt64
  deriving DecidableEq

inductive ComponentStatePayload where
  | inline (bytes : List UInt8)
  | external (reference : ExternalStateReference)
  deriving DecidableEq

/-- The length of inline bytes; an external payload counts as empty. -/
def ComponentStatePayload.inlineLen : ComponentStatePayload → Nat
  | .inline bytes => bytes.length
  | .external _ => 0

def inlinePayloadMarker (bytes : List UInt8) : List UInt8 := 0 :: bytes

def externalPayloadMarker (reference : ExternalStateReference) : List UInt8 :=
  1 :: reference.contentId.toList ++ beBytes 8 reference.encodedLen.toNat

def ComponentStatePayload.marker : ComponentStatePayload → List UInt8
  | .inline bytes => inlinePayloadMarker bytes
  | .external reference => externalPayloadMarker reference

/-- The bytes a checksum covers, in front of those of the payload. -/
def checksumHeader : List UInt8 := textBytes "oxide-batch.component-state" ++ [0]

def canonicalChecksumInput (streamNamespace : ComponentStreamIdentity) (schemaId : StateSchemaId)
    (schemaVersion : StateSchemaVersion) (codecId : CodecId) (codecVersion : CodecVersion)
    (payloadMarker : List UInt8) : List UInt8 :=
  checksumHeader ++ (textBytes streamNamespace.value ++ 0 :: (textBytes schemaId.value ++
    0 :: (beBytes 4 schemaVersion.get ++ (textBytes codecId.value ++
      0 :: (beBytes 4 codecVersion.get ++ payloadMarker)))))

/-- `serde_json` over payload bytes and SHA-256; what a checksum is made of stays open. -/
structure StateFormat (Checksum : Type) where
  fromSlice : List UInt8 → Option Json
  sha256 : List UInt8 → Checksum

abbrev StateSchemaUpgrade := Upgrade StateSchemaVersion (List UInt8) StateCodecError

abbrev CodecVersionUpgrade := Upgrade CodecVersion (List UInt8) StateCodecError

/-- A component's codec: two version axes, the upgrades declared on each, and the
encoding of its values. -/
structure ComponentStateCodec (T : Type) where
  schemaId : StateSchemaId
  currentVersion : StateSchemaVersion
  upgrades : List StateSchemaUpgrade
  codecId : CodecId
  codecVersion : CodecVersion
  codecUpgrades : List CodecVersionUpgrade
  encode : T → Except StateCodecError (List UInt8)
  decode : List UInt8 → Except StateCodecError T

structure ComponentStateEnvelope (Checksum : Type) where
  streamNamespace : ComponentStreamIdentity
  schemaId : StateSchemaId
  schemaVersion : StateSchemaVersion
  codecId : CodecId
  codecVersion : CodecVersion
  checksumAlgorithm : ChecksumAlgorithm
  checksum : Checksum
  payload : ComponentStatePayload
  encodedLen : Nat
  deriving DecidableEq

/-- The raw columns an envelope is stored in. -/
structure DurableColumns (Checksum : Type) where
  streamNamespace : ComponentStreamIdentity
  schemaId : String
  schemaVersion : UInt32
  codecId : String
  codecVersion : UInt32
  checksumAlgorithm : UInt16
  checksumAlgorithmVersion : UInt16
  checksum : Checksum
  payload : ComponentStatePayload

section

variable {Checksum T : Type} (format : StateFormat Checksum)

/-- `check_upgraded`. -/
def checkUpgraded (payload : List UInt8) : Except StateError Unit :=
  if maximumBytes < payload.length then .error (.tooLarge maximumBytes)
  else
    match format.fromSlice payload with
    | none => .error .upgradeProducedInvalidJson
    | some value =>
      if value.asObject.isNone then .error .payloadNotObject
      else if maximumDepth < value.depth then .error (.tooDeep maximumDepth)
      else .ok ()

/-- `upgrade_schema_chain`. -/
def upgradeSchemaChain (recorded : StateSchemaVersion) (codec : ComponentStateCodec T)
    (payload : List UInt8) : Except StateError (List UInt8) :=
  (upgradeChain codec.upgrades (checkUpgraded format) codec.currentVersion maxUpgradeChain recorded
    payload).mapError fun
    | .noPath found => .noUpgradePath found codec.currentVersion
    | .ambiguous source => .ambiguousUpgrade source
    | .overshoots target => .upgradeOvershootsCurrent target codec.currentVersion
    | .tooLong => .upgradeChainTooLong maxUpgradeChain
    | .apply error => .codec error
    | .rejected error => error

/-- `check_upgraded_component_state`. -/
def checkUpgradedComponentState (payload : List UInt8) : Except ComponentStateError Unit := do
  refuse (maximumBytes < payload.length) (.tooLarge maximumBytes)
  let value ← demand (format.fromSlice payload) .payloadNotObject
  refuse (value.asObject.isNone) .payloadNotObject
  refuse (maximumDepth < value.depth) (.tooDeep maximumDepth)

/-- `upgrade_codec_chain`. -/
def upgradeCodecChain (recorded : CodecVersion) (codec : ComponentStateCodec T)
    (payload : List UInt8) : Except ComponentStateError (List UInt8) :=
  (upgradeChain codec.codecUpgrades (checkUpgradedComponentState format) codec.codecVersion
    maxUpgradeChain recorded payload).mapError fun
    | .noPath found => .noCodecUpgradePath found.get codec.codecVersion.get
    | .ambiguous source => .ambiguousCodecUpgrade source.get
    | .overshoots target => .codecUpgradeOvershootsCurrent target.get codec.codecVersion.get
    | .tooLong => .codecUpgradeChainTooLong maxUpgradeChain
    | .apply error => .codec error
    | .rejected error => error

/-- `map_schema_chain_error`. -/
def mapSchemaChainError : StateError → ComponentStateError
  | .noUpgradePath found current => .noSchemaUpgradePath found.get current.get
  | .ambiguousUpgrade source => .ambiguousSchemaUpgrade source.get
  | .upgradeOvershootsCurrent target current =>
    .schemaUpgradeOvershootsCurrent target.get current.get
  | .upgradeChainTooLong maxUpgrades => .schemaUpgradeChainTooLong maxUpgrades
  | .tooLarge maxBytes => .tooLarge maxBytes
  | .tooDeep maxDepth => .tooDeep maxDepth
  | .codec error => .codec error
  | .upgradeProducedInvalidJson => .malformed
  | .payloadNotObject => .malformed

/-- The shape every inline payload is held to: a JSON object within the limits. -/
def checkPayload (unreadable : ComponentStateError) (limits : StateLimits) (payload : List UInt8) :
    Except ComponentStateError Unit := do
  let value ← demand (format.fromSlice payload) unreadable
  refuse (value.asObject.isNone) .payloadNotObject
  refuse (limits.depth < value.depth) (.tooDeep limits.depth)

/-- The shape of a stored payload; a reference has none to check. -/
def checkStored (limits : StateLimits) : ComponentStatePayload → Except ComponentStateError Unit
  | .inline bytes => checkPayload format .malformed limits bytes
  | .external _ => .ok ()

namespace ComponentStateEnvelope

/-- An envelope with the checksum of its fields. -/
def stamped (streamNamespace : ComponentStreamIdentity) (schemaId : StateSchemaId)
    (schemaVersion : StateSchemaVersion) (codecId : CodecId) (codecVersion : CodecVersion)
    (algorithm : ChecksumAlgorithm) (payload : ComponentStatePayload) :
    ComponentStateEnvelope Checksum :=
  { streamNamespace, schemaId, schemaVersion, codecId, codecVersion
    checksumAlgorithm := algorithm
    checksum := format.sha256 (canonicalChecksumInput streamNamespace schemaId schemaVersion
      codecId codecVersion payload.marker)
    payload
    encodedLen := payload.inlineLen }

/-- `ComponentStateEnvelope::encode`. -/
def encode (streamNamespace : ComponentStreamIdentity) (value : T)
    (codec : ComponentStateCodec T) (limits : StateLimits) :
    Except ComponentStateError (ComponentStateEnvelope Checksum) := do
  let payload ← (codec.encode value).mapError .codec
  refuse (limits.bytes < payload.length) (.tooLarge limits.bytes)
  checkPayload format .invalidPayload limits payload
  return stamped format streamNamespace codec.schemaId codec.currentVersion codec.codecId
    codec.codecVersion .current (.inline payload)

/-- `ComponentStateEnvelope::from_transformed_inline`. -/
def fromTransformedInline (source : ComponentStateEnvelope Checksum) (schemaId : StateSchemaId)
    (schemaVersion : StateSchemaVersion) (payload : List UInt8) (limits : StateLimits) :
    Except ComponentStateError (ComponentStateEnvelope Checksum) :=
  match source.payload with
  | .external _ => .error .malformed
  | .inline _ => do
    refuse (limits.bytes < payload.length) (.tooLarge limits.bytes)
    checkPayload format .invalidPayload limits payload
    return stamped format source.streamNamespace schemaId schemaVersion source.codecId
      source.codecVersion source.checksumAlgorithm (.inline payload)

/-- `ComponentStateEnvelope::external`. -/
def external (streamNamespace : ComponentStreamIdentity) (schemaId : StateSchemaId)
    (schemaVersion : StateSchemaVersion) (codecId : CodecId) (codecVersion : CodecVersion)
    (reference : ExternalStateReference) : ComponentStateEnvelope Checksum :=
  stamped format streamNamespace schemaId schemaVersion codecId codecVersion .current
    (.external reference)

/-- `ComponentStateEnvelope::from_durable`. -/
def fromDurable [DecidableEq Checksum] (columns : DurableColumns Checksum) (limits : StateLimits) :
    Except ComponentStateError (ComponentStateEnvelope Checksum) := do
  let schemaId ← demand (Token.new 128 columns.schemaId) .malformed
  let schemaVersion ← demand (Positive.new columns.schemaVersion) .malformed
  let codecId ← CodecId.new columns.codecId
  let codecVersion ← demand (Positive.new columns.codecVersion) .zeroCodecVersion
  let algorithm ← demand
    (ChecksumAlgorithm.resolve columns.checksumAlgorithm columns.checksumAlgorithmVersion)
    (.checksumAlgorithmUnsupported columns.checksumAlgorithm columns.checksumAlgorithmVersion)
  refuse (limits.bytes < columns.payload.inlineLen) (.tooLarge limits.bytes)
  -- The checksum is compared before any of the payload is read.
  let expected := format.sha256 (canonicalChecksumInput columns.streamNamespace schemaId
    schemaVersion codecId codecVersion columns.payload.marker)
  refuse (expected ≠ columns.checksum) .checksumMismatch
  checkStored format limits columns.payload
  return { streamNamespace := columns.streamNamespace, schemaId, schemaVersion, codecId,
           codecVersion, checksumAlgorithm := algorithm, checksum := columns.checksum,
           payload := columns.payload, encodedLen := columns.payload.inlineLen }

/-- The columns an envelope is stored in. -/
def columns (envelope : ComponentStateEnvelope Checksum) : DurableColumns Checksum where
  streamNamespace := envelope.streamNamespace
  schemaId := envelope.schemaId.value
  schemaVersion := UInt32.ofNat envelope.schemaVersion.get
  codecId := envelope.codecId.value
  codecVersion := UInt32.ofNat envelope.codecVersion.get
  checksumAlgorithm := envelope.checksumAlgorithm.identifier
  checksumAlgorithmVersion := envelope.checksumAlgorithm.algorithmVersion
  checksum := envelope.checksum
  payload := envelope.payload

/-- The identity and version checks in front of decoding and of opening. -/
def compatible (envelope : ComponentStateEnvelope Checksum) (codec : ComponentStateCodec T) :
    Except ComponentStateError Unit := do
  refuse (envelope.codecId ≠ codec.codecId) .unknownCodec
  refuse (envelope.schemaId ≠ codec.schemaId) .schemaMismatch
  refuse (codec.currentVersion < envelope.schemaVersion)
    (.unsupportedSchemaVersion envelope.schemaVersion.get codec.currentVersion.get)
  refuse (codec.codecVersion < envelope.codecVersion)
    (.unsupportedCodecVersion envelope.codecVersion.get codec.codecVersion.get)

/-- The schema chain and behind it the codec chain over inline bytes. -/
def migrate (envelope : ComponentStateEnvelope Checksum) (codec : ComponentStateCodec T)
    (bytes : List UInt8) : Except ComponentStateError (List UInt8) := do
  let migrated ← (upgradeSchemaChain format envelope.schemaVersion codec bytes).mapError
    mapSchemaChainError
  upgradeCodecChain format envelope.codecVersion codec migrated

/-- `ComponentStateEnvelope::decode`. -/
def decode (envelope : ComponentStateEnvelope Checksum) (codec : ComponentStateCodec T) :
    Except ComponentStateError T := do
  envelope.compatible codec
  match envelope.payload with
  | .external _ => throw .externalReferenceMissing
  | .inline bytes =>
    let migrated ← envelope.migrate format codec bytes
    (codec.decode migrated).mapError .codec

/-- `ComponentStateEnvelope::validated_for_open`. -/
def validatedForOpen (envelope : ComponentStateEnvelope Checksum) (codec : ComponentStateCodec T) :
    Except ComponentStateError (ComponentStateEnvelope Checksum) := do
  envelope.compatible codec
  match envelope.payload with
  | .external _ =>
    refuse (envelope.schemaVersion < codec.currentVersion)
      (.externalSchemaMigrationUnsupported envelope.schemaVersion.get codec.currentVersion.get)
    refuse (envelope.codecVersion < codec.codecVersion)
      (.externalCodecMigrationUnsupported envelope.codecVersion.get codec.codecVersion.get)
    return envelope
  | .inline bytes =>
    let migrated ← envelope.migrate format codec bytes
    -- Bytes that no upgrade changed keep the envelope they came in.
    return if migrated = bytes then envelope
      else stamped format envelope.streamNamespace envelope.schemaId codec.currentVersion
        envelope.codecId codec.codecVersion .current (.inline migrated)

end ComponentStateEnvelope

end

end OxideBatch.Core
