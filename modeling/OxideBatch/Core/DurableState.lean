import OxideBatch.Core.ComponentState

/-! Checkpoints and execution contexts: the versioned envelope a durable state is written
in, its limits, and the upgrade chain in front of decoding. -/

namespace OxideBatch.Core.Durable

open OxideBatch.Lib

/-- `FORMAT_VERSION`. -/
def formatVersion : Nat := 1

inductive DurableStateKind where
  | checkpoint
  | executionContext
  | componentState
  deriving DecidableEq, Repr

def DurableStateKind.format : DurableStateKind → String
  | .checkpoint => "oxide-batch.checkpoint"
  | .executionContext => "oxide-batch.execution-context"
  | .componentState => "oxide-batch.component-state"

inductive StateError where
  | emptySchemaId
  | schemaIdTooLong (maxBytes : Nat)
  | schemaIdHasSurroundingWhitespace
  | schemaIdContainsControl
  | zeroSchemaVersion
  | invalidByteLimit (maximum : Nat)
  | invalidDepthLimit (maximum : Nat)
  | tooLarge (kind : DurableStateKind) (maxBytes : Nat)
  | tooDeep (kind : DurableStateKind) (maxDepth : Nat)
  | malformed (kind : DurableStateKind)
  | formatMismatch (kind : DurableStateKind)
  | unsupportedFormatVersion (kind : DurableStateKind) (version : Nat)
  | schemaMismatch (kind : DurableStateKind)
  | nonIncreasingUpgrade (source target : StateSchemaVersion)
  | noUpgradePath (kind : DurableStateKind) (found current : StateSchemaVersion)
  | ambiguousUpgrade (kind : DurableStateKind) (source : StateSchemaVersion)
  | upgradeOvershootsCurrent (kind : DurableStateKind) (target current : StateSchemaVersion)
  | upgradeChainTooLong (kind : DurableStateKind) (maxUpgrades : Nat)
  | upgradeProducedInvalidJson (kind : DurableStateKind)
  | unsupportedSchemaVersion (kind : DurableStateKind) (found current : StateSchemaVersion)
  | invalidPayload
  | payloadNotObject
  | codec (error : StateCodecError)
  deriving DecidableEq

/-- Fails where a condition holds. -/
def refuse (condition : Prop) [Decidable condition] (error : StateError) : Except StateError Unit :=
  if condition then .error error else .ok ()

/-- `ok_or`. -/
def demand {α : Type} (value : Option α) (error : StateError) : Except StateError α :=
  value.elim (.error error) .ok

/-- `StateSchemaId::new`. -/
def newSchemaId (value : String) : Except StateError StateSchemaId := do
  refuse (value.toList = []) .emptySchemaId
  refuse (128 < value.utf8ByteSize) (.schemaIdTooLong 128)
  refuse (value.toList.head?.any isWhiteSpace ∨ value.toList.getLast?.any isWhiteSpace)
    .schemaIdHasSurroundingWhitespace
  demand (Token.new 128 value) .schemaIdContainsControl

/-- `StateSchemaVersion::new`, for a number that fits `u32`. -/
def newSchemaVersion (value : Nat) : Except StateError StateSchemaVersion :=
  demand (Positive.new (UInt32.ofNat value)) .zeroSchemaVersion

/-- An application's codec for one durable-state schema. -/
structure VersionedStateCodec (T : Type) where
  schemaId : StateSchemaId
  currentVersion : StateSchemaVersion
  upgrades : List StateSchemaUpgrade
  encode : T → Except StateCodecError (List UInt8)
  decode : List UInt8 → Except StateCodecError T

structure VersionedState where
  schemaId : StateSchemaId
  schemaVersion : StateSchemaVersion
  payload : Json
  encodedBytes : Nat

/-- `envelope`. -/
def envelope (kind : DurableStateKind) (schemaId : StateSchemaId)
    (schemaVersion : StateSchemaVersion) (payload : Json) : Json :=
  .object <|
    Json.insertMember "payload" payload <|
    Json.insertMember "schema_version" (.integer schemaVersion.get) <|
    Json.insertMember "schema" (.string schemaId.value) <|
    Json.insertMember "format_version" (.integer formatVersion) <|
    Json.insertMember "format" (.string kind.format) []

section

variable {T : Type} (fromSlice : List UInt8 → Option Json)

/-- `check_upgraded`. -/
def checkUpgraded (kind : DurableStateKind) (payload : List UInt8) : Except StateError Unit := do
  refuse (maximumBytes < payload.length) (.tooLarge kind maximumBytes)
  let value ← demand (fromSlice payload) (.upgradeProducedInvalidJson kind)
  refuse value.asObject.isNone .payloadNotObject
  refuse (maximumDepth < value.depth) (.tooDeep kind maximumDepth)

/-- What `upgrade_schema_chain` reports where its walk ends early. -/
def chainError (kind : DurableStateKind) (current : StateSchemaVersion) :
    UpgradeError StateSchemaVersion StateCodecError StateError → StateError
  | .noPath found => .noUpgradePath kind found current
  | .ambiguous source => .ambiguousUpgrade kind source
  | .overshoots target => .upgradeOvershootsCurrent kind target current
  | .tooLong => .upgradeChainTooLong kind maxUpgradeChain
  | .apply error => .codec error
  | .rejected error => error

/-- `upgrade_schema_chain`. -/
def upgradeSchemaChain (kind : DurableStateKind) (recorded : StateSchemaVersion)
    (codec : VersionedStateCodec T) (payload : List UInt8) : Except StateError (List UInt8) :=
  (upgradeChain codec.upgrades (checkUpgraded fromSlice kind) codec.currentVersion maxUpgradeChain
    recorded payload).mapError (chainError kind codec.currentVersion)

namespace VersionedState

/-- `VersionedState::from_parts`. -/
def fromParts (kind : DurableStateKind) (schemaId : StateSchemaId)
    (schemaVersion : StateSchemaVersion) (payload : Json) (limits : StateLimits) :
    Except StateError VersionedState := do
  let envelope := envelope kind schemaId schemaVersion payload
  let bytes := envelope.toBytes
  refuse (limits.bytes < bytes.length) (.tooLarge kind limits.bytes)
  refuse (limits.depth < envelope.depth) (.tooDeep kind limits.depth)
  return { schemaId, schemaVersion, payload, encodedBytes := bytes.length }

/-- `VersionedState::encode`. -/
def encode (kind : DurableStateKind) (value : T) (codec : VersionedStateCodec T)
    (limits : StateLimits) : Except StateError VersionedState := do
  let bytes ← (codec.encode value).mapError .codec
  let payload ← demand (fromSlice bytes) .invalidPayload
  refuse payload.asObject.isNone .payloadNotObject
  fromParts kind codec.schemaId codec.currentVersion payload limits

/-- An unsigned number below a bound. -/
def unsigned (bound : Nat) (value : Json) : Option Nat :=
  value.asU64.bind fun number => if number < bound then some number else none

/-- `VersionedState::from_json`. -/
def fromJson (kind : DurableStateKind) (bytes : List UInt8) (limits : StateLimits) :
    Except StateError VersionedState := do
  refuse (limits.bytes < bytes.length) (.tooLarge kind limits.bytes)
  let value ← demand (fromSlice bytes) (.malformed kind)
  refuse (limits.depth < value.depth) (.tooDeep kind limits.depth)
  let object ← demand value.asObject (.malformed kind)
  let format ← demand ((Json.member? "format" object).bind Json.asStr) (.malformed kind)
  refuse (format ≠ kind.format) (.formatMismatch kind)
  let version ← demand ((Json.member? "format_version" object).bind (unsigned (2 ^ 16)))
    (.malformed kind)
  refuse (version ≠ formatVersion) (.unsupportedFormatVersion kind version)
  let schema ← demand ((Json.member? "schema" object).bind Json.asStr) (.malformed kind)
  let schemaId ← newSchemaId schema
  let schemaVersion ← demand ((Json.member? "schema_version" object).bind (unsigned (2 ^ 32)))
    (.malformed kind)
  let schemaVersion ← newSchemaVersion schemaVersion
  let payload ← demand (Json.member? "payload" object) (.malformed kind)
  refuse payload.asObject.isNone .payloadNotObject
  return { schemaId, schemaVersion, payload, encodedBytes := bytes.length }

/-- `VersionedState::decode`. -/
def decode (state : VersionedState) (kind : DurableStateKind) (codec : VersionedStateCodec T) :
    Except StateError T := do
  refuse (state.schemaId ≠ codec.schemaId) (.schemaMismatch kind)
  refuse (codec.currentVersion < state.schemaVersion)
    (.unsupportedSchemaVersion kind state.schemaVersion codec.currentVersion)
  let payload ← upgradeSchemaChain fromSlice kind state.schemaVersion codec state.payload.toBytes
  (codec.decode payload).mapError .codec

/-- `VersionedState::to_json`; writing a document to memory cannot fail. -/
def toJson (state : VersionedState) (kind : DurableStateKind) : List UInt8 :=
  (envelope kind state.schemaId state.schemaVersion state.payload).toBytes

end VersionedState

end

end OxideBatch.Core.Durable
