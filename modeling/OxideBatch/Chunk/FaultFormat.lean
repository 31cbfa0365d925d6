import OxideBatch.Chunk.FaultState
import OxideBatch.Core.ComponentState

/-! Fault-state format 1: the canonical JSON of an envelope, the decoder of stored bytes,
and the check against the policy that resumes from them. -/

namespace OxideBatch.Core

/-- `FailureCategory::durable_code`. -/
def FailureCategory.durableCode : FailureCategory → String
  | .invalidDefinition => "INVALID_DEFINITION"
  | .duplicateExecution => "DUPLICATE_EXECUTION"
  | .illegalTransition => "ILLEGAL_TRANSITION"
  | .transientInfrastructure => "TRANSIENT_INFRASTRUCTURE"
  | .permanentInfrastructure => "PERMANENT_INFRASTRUCTURE"
  | .userComponent => "USER_COMPONENT"
  | .cancelled => "CANCELLED"
  | .serialization => "SERIALIZATION"
  | .invariant => "INVARIANT"
  | .optimisticConflict => "OPTIMISTIC_CONFLICT"
  | .timeout => "TIMEOUT"
  | .unsupportedCapability => "UNSUPPORTED_CAPABILITY"
  | .unknownCommit => "UNKNOWN_COMMIT"
  | .shutdownIncomplete => "SHUTDOWN_INCOMPLETE"
  | .staleRecovered => "STALE_RECOVERED"

/-- `FailureCategory::from_durable_code`. -/
def FailureCategory.fromDurableCode : String → Option FailureCategory
  | "INVALID_DEFINITION" => some .invalidDefinition
  | "DUPLICATE_EXECUTION" => some .duplicateExecution
  | "ILLEGAL_TRANSITION" => some .illegalTransition
  | "TRANSIENT_INFRASTRUCTURE" => some .transientInfrastructure
  | "PERMANENT_INFRASTRUCTURE" => some .permanentInfrastructure
  | "USER_COMPONENT" => some .userComponent
  | "CANCELLED" => some .cancelled
  | "SERIALIZATION" => some .serialization
  | "INVARIANT" => some .invariant
  | "OPTIMISTIC_CONFLICT" => some .optimisticConflict
  | "TIMEOUT" => some .timeout
  | "UNSUPPORTED_CAPABILITY" => some .unsupportedCapability
  | "UNKNOWN_COMMIT" => some .unknownCommit
  | "SHUTDOWN_INCOMPLETE" => some .shutdownIncomplete
  | "STALE_RECOVERED" => some .staleRecovered
  | _ => none

/-- `FaultPhase::from_durable_name`. -/
def FaultPhase.fromDurableName : String → Option FaultPhase
  | "read" => some .read
  | "process" => some .process
  | "write" => some .write
  | "transaction" => some .transaction
  | "checkpoint" => some .checkpoint
  | "listener" => some .listener
  | "backoff" => some .backoff
  | _ => none

end OxideBatch.Core

namespace OxideBatch.Chunk

open OxideBatch.Core OxideBatch.Lib

/-- Fails where a condition holds. -/
def reject (condition : Prop) [Decidable condition] (error : FaultStateFormatError) :
    Except FaultStateFormatError Unit :=
  if condition then .error error else .ok ()

section Hex

/-- The two digits of a byte, the higher one first. -/
def hexPair (byte : UInt8) : List Char :=
  [Nat.digitChar (byte.toNat / 16), Nat.digitChar (byte.toNat % 16)]

def hex (bytes : Digest) : String := String.ofList (bytes.flatMap hexPair)

/-- `to_digit(16)` of the character of one byte. -/
def toDigit (byte : UInt8) : Option Nat :=
  let code := byte.toNat
  if 48 ≤ code ∧ code ≤ 57 then some (code - 48)
  else if 97 ≤ code ∧ code ≤ 102 then some (code - 87)
  else if 65 ≤ code ∧ code ≤ 70 then some (code - 55)
  else none

/-- The bytes of a text of digits, two to a byte. -/
def unhexPairs : List UInt8 → Option Digest
  | high :: low :: rest => do
    let high ← toDigit high
    let low ← toDigit low
    let bytes ← unhexPairs rest
    return UInt8.ofNat (high * 16 + low) :: bytes
  | _ => some []

def unhex (text : String) : Option Digest :=
  if (textBytes text).length ≠ 64 then none else unhexPairs (textBytes text)

end Hex

/-- `RetryOrdinal::new` of a number read as `u64`. -/
def retryOrdinal (value : Nat) : Option Nat :=
  if value < 2 ^ 32 ∧ value ≤ maxRetry then some value else none

namespace FaultStateEntry

def toJson (entry : FaultStateEntry) : Json :=
  .object
    [("category", .string entry.category.durableCode), ("key", .string (hex entry.key)),
      ("ordinal", .integer entry.ordinal), ("phase", .string entry.phase.asStr),
      ("revision", .string entry.revision.value)]

def fromJson (value : Json) : Except FaultStateFormatError FaultStateEntry := do
  let object ← value.asObject.elim (.error .malformedEntry) .ok
  let key ← (((Json.member? "key" object).bind Json.asStr).bind unhex).elim
    (.error .malformedEntry) .ok
  let phase ← (((Json.member? "phase" object).bind Json.asStr).bind FaultPhase.fromDurableName).elim
    (.error .unknownEnumeration) .ok
  let category ← (((Json.member? "category" object).bind Json.asStr).bind
    FailureCategory.fromDurableCode).elim (.error .unknownEnumeration) .ok
  let ordinal ← (((Json.member? "ordinal" object).bind Json.asU64).bind retryOrdinal).elim
    (.error .malformedEntry) .ok
  let revision ← (((Json.member? "revision" object).bind Json.asStr).bind (Token.new 128)).elim
    (.error .malformedEntry) .ok
  return ⟨key, phase, category, ordinal, revision⟩

end FaultStateEntry

/-- The digest of no checkpoint. -/
def zeroDigest : Digest := List.replicate 32 0

instance : Trans (fun left right : FaultStateEntry => left.key < right.key)
    (fun left right : FaultStateEntry => left.key < right.key)
    (fun left right : FaultStateEntry => left.key < right.key) :=
  ⟨fun less more => lt_trans less more⟩

/-- Entries in the order of their keys, none of them equal to the next, are a table. -/
private theorem ascending_of_distinct {entries : List FaultStateEntry}
    (sorted : entries.Pairwise fun left right => left.key ≤ right.key)
    (distinct : entries.IsChain fun left right => left.key ≠ right.key) :
    entries.Pairwise fun left right => left.key < right.key := by
  have chained : entries.IsChain fun left right => left.key < right.key := by
    induction entries with
    | nil => exact .nil
    | cons first rest ih =>
      cases rest with
      | nil => exact .singleton first
      | cons second rest =>
        obtain ⟨here, later⟩ := List.isChain_cons_cons.mp distinct
        obtain ⟨below, sorted⟩ := List.pairwise_cons.mp sorted
        exact .cons_cons (lt_of_le_of_ne (below second List.mem_cons_self) here) (ih sorted later)
  exact List.isChain_iff_pairwise.mp chained

namespace FaultStateEnvelope

def format : String := "oxide-batch.fault-state"

def formatVersion : Nat := 1

def schemaVersion : Nat := 1

def maxBytes : Nat := 64 * 1024

def maxEntries : Nat := 256

/-- `sort_by_key`. -/
def sortByKey (entries : List FaultStateEntry) : List FaultStateEntry :=
  entries.mergeSort fun left right => left.key ≤ right.key

private theorem sortByKey_sorted (entries : List FaultStateEntry) :
    (sortByKey entries).Pairwise fun left right => left.key ≤ right.key := by
  have transitive : ∀ left middle right : FaultStateEntry,
      decide (left.key ≤ middle.key) = true → decide (middle.key ≤ right.key) = true →
        decide (left.key ≤ right.key) = true := by
    intro left middle right first second
    exact decide_eq_true (le_trans (of_decide_eq_true first) (of_decide_eq_true second))
  have total : ∀ left right : FaultStateEntry,
      (decide (left.key ≤ right.key) || decide (right.key ≤ left.key)) = true := by
    intro left right
    simpa using le_total left.key right.key
  exact (List.pairwise_mergeSort transitive total entries).imp fun below => of_decide_eq_true below

/-- `FaultStateEnvelope::new`. -/
def new (checkpointDigest : Digest) (entries : List FaultStateEntry) :
    Except FaultStateFormatError FaultStateEnvelope :=
  if maxEntries < entries.length then .error (.tooManyEntries maxEntries)
  else if distinct : (sortByKey entries).IsChain fun left right => left.key ≠ right.key then
    if entries = [] then
      if checkpointDigest ≠ zeroDigest then .error .checkpointMismatch
      else .ok ⟨checkpointDigest, sortByKey entries, ascending_of_distinct (sortByKey_sorted _) distinct⟩
    else if checkpointDigest = zeroDigest then .error .checkpointMismatch
    else .ok ⟨checkpointDigest, sortByKey entries, ascending_of_distinct (sortByKey_sorted _) distinct⟩
  else .error .duplicateKey

def toJson (envelope : FaultStateEnvelope) : Json :=
  .object
    [("checkpoint", .string (hex envelope.checkpointDigest)),
      ("entries", .array (envelope.entries.entries.map FaultStateEntry.toJson))]

/-- `to_canonical_json`. -/
def toCanonicalJson (envelope : FaultStateEnvelope) : Except FaultStateFormatError (List UInt8) :=
  if maxBytes < envelope.toJson.toBytes.length then .error (.tooLarge maxBytes)
  else .ok envelope.toJson.toBytes

section Stored

variable {Checksum : Type} [DecidableEq Checksum] (serde : StateFormat Checksum)

def checksum (envelope : FaultStateEnvelope) : Except FaultStateFormatError Checksum :=
  envelope.toCanonicalJson.map serde.sha256

/-- The members of a stored document, its versions and its size apart. -/
def decode (object : List (String × Json)) : Except FaultStateFormatError FaultStateEnvelope := do
  let checkpointDigest ← (((Json.member? "checkpoint" object).bind Json.asStr).bind unhex).elim
    (.error .malformed) .ok
  let raw ← ((Json.member? "entries" object).bind Json.asArray).elim (.error .malformed) .ok
  reject (maxEntries < raw.length) (.tooManyEntries maxEntries)
  let entries ← raw.mapM FaultStateEntry.fromJson
  reject (¬ entries.IsChain fun left right => left.key < right.key) .unsortedEntries
  new checkpointDigest entries

/-- `from_canonical_json`. -/
def fromCanonicalJson (storedVersion : Nat) (schema : String) (storedSchema : Nat)
    (bytes : List UInt8) (stored : Checksum) : Except FaultStateFormatError FaultStateEnvelope := do
  reject (storedVersion ≠ formatVersion ∨ schema ≠ format) .unsupportedFormat
  reject (storedSchema ≠ schemaVersion) .unsupportedSchemaVersion
  reject (maxBytes < bytes.length) (.tooLarge maxBytes)
  let value ← (serde.fromSlice bytes).elim (.error .malformed) .ok
  let object ← value.asObject.elim (.error .malformed) .ok
  let envelope ← decode object
  let covered ← envelope.checksum serde
  reject (covered ≠ stored) .checksumMismatch
  return envelope

end Stored

/-- `validate_for`. -/
def validateFor (envelope : FaultStateEnvelope) (retryLimit stateLimit : Nat)
    (checkpointDigest : Digest) : Except FaultStateFormatError Unit :=
  if stateLimit < envelope.entries.entries.length then .error (.tooManyEntries stateLimit)
  else if envelope.entries.entries.any fun entry => retryLimit < entry.ordinal then
    .error (.ordinalAboveLimit retryLimit)
  else if envelope.entries.entries ≠ [] ∧ envelope.checkpointDigest ≠ checkpointDigest then
    .error .checkpointMismatch
  else .ok ()

end FaultStateEnvelope

end OxideBatch.Chunk
