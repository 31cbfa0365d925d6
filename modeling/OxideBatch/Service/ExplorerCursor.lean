import OxideBatch.Service.Units
import OxideBatch.Lib.Hex
import OxideBatch.Repository.KeyDigests

/-! The continuation tokens of the explorer: how a key and a ceiling are bound to the
query, the filter, and the page size they continue. -/

namespace OxideBatch.Service

open OxideBatch.Core OxideBatch.Plan OxideBatch.Repository OxideBatch.Lib

section Queries

def maxPageSize : Nat := 500

structure PageSize where
  get : Nat
  valid : 0 < get ∧ get ≤ maxPageSize
  deriving DecidableEq

/-- `std::time::Duration` in nanoseconds: its seconds are a `u64`. -/
abbrev StdDuration := Fin (u64Limit * 10 ^ 9)

def StdDuration.asSecs (duration : StdDuration) : Nat := duration.val / 10 ^ 9

inductive ExplorerQuery where
  | jobNames
  | instances (jobName : JobName)
  | executions (jobInstanceId : JobInstanceId)
  | stepExecutions (jobExecutionId : JobExecutionId)
  | unresolvedExecutions (minimumAge : StdDuration)
  | recoveryDecisions (jobExecutionId : JobExecutionId)
  | flowDecisions (jobExecutionId : JobExecutionId)
  | stepPartitions (stepExecutionId : StepExecutionId)
  | operatorRequests (jobExecutionId : JobExecutionId)
  | definitionRevisions (jobName : JobName)
  | definitionUpgrades (jobName : JobName)
  | forkLineages (sourceExecutionId : JobExecutionId)
  | nestedJobLinks (parentJobExecutionId : JobExecutionId)
  | scopeResolutions (jobExecutionId : JobExecutionId)
  deriving DecidableEq

namespace ExplorerQuery

def discriminant : ExplorerQuery → UInt8
  | jobNames => 1
  | instances _ => 2
  | executions _ => 3
  | stepExecutions _ => 4
  | unresolvedExecutions _ => 5
  | recoveryDecisions _ => 6
  | flowDecisions _ => 7
  | stepPartitions _ => 8
  | operatorRequests _ => 9
  | definitionRevisions _ => 10
  | definitionUpgrades _ => 11
  | forkLineages _ => 12
  | nestedJobLinks _ => 13
  | scopeResolutions _ => 14

def name : ExplorerQuery → String
  | jobNames => "list_job_names"
  | instances _ => "list_instances"
  | executions _ => "list_executions"
  | stepExecutions _ => "list_step_executions"
  | unresolvedExecutions _ => "list_unresolved_executions"
  | recoveryDecisions _ => "list_recovery_decisions"
  | flowDecisions _ => "list_flow_decisions"
  | stepPartitions _ => "list_step_partitions"
  | operatorRequests _ => "list_operator_requests"
  | definitionRevisions _ => "list_definition_revisions"
  | definitionUpgrades _ => "list_definition_upgrades"
  | forkLineages _ => "list_fork_lineages"
  | nestedJobLinks _ => "list_nested_job_links"
  | scopeResolutions _ => "list_scope_resolutions"

/-- What `ExplorerQuery::identity` hashes. -/
def identityBytes (query : ExplorerQuery) (size : PageSize) : CanonicalBytes :=
  let writer := ((CanonicalBytes.new "oxide-batch.explorer-query.v1").pushStr query.name).pushU64
    size.get
  match query with
  | jobNames => writer.pushStr ""
  | instances jobName => writer.pushStr jobName.value
  | executions jobInstanceId => writer.pushU64 jobInstanceId.get
  | stepExecutions jobExecutionId | recoveryDecisions jobExecutionId
  | flowDecisions jobExecutionId | operatorRequests jobExecutionId
  | scopeResolutions jobExecutionId => writer.pushU64 jobExecutionId.get
  | unresolvedExecutions minimumAge => writer.pushU64 minimumAge.asSecs
  | stepPartitions stepExecutionId => writer.pushU64 stepExecutionId.get
  | definitionRevisions jobName | definitionUpgrades jobName => writer.pushStr jobName.value
  | forkLineages sourceExecutionId => writer.pushU64 sourceExecutionId.get
  | nestedJobLinks parentJobExecutionId => writer.pushU64 parentJobExecutionId.get

end ExplorerQuery

end Queries

section Tokens

inductive CursorError where
  | cursorInvalid
  | cursorQueryMismatch
  deriving DecidableEq

def maxCursorBytes : Nat := 256

def maxCursorNameBytes : Nat := 128

/-- `BINDING_BYTES`. -/
def bindingBytes : Nat := 8

structure Cursor where
  bytes : List UInt8
  valid : bytes ≠ [] ∧ bytes.length ≤ maxCursorBytes
  deriving DecidableEq

namespace Cursor

def fromBytes (value : List UInt8) : Except CursorError Cursor :=
  if valid : value ≠ [] ∧ value.length ≤ maxCursorBytes then .ok ⟨value, valid⟩
  else .error .cursorInvalid

def fromHex (value : String) : Except CursorError Cursor :=
  let raw := textBytes value
  if raw.length % 2 ≠ 0 then .error .cursorInvalid
  else match unhex raw with
    | some bytes => fromBytes bytes
    | none => .error .cursorInvalid

/-- `Display`. -/
def display (cursor : Cursor) : String := hexText cursor.bytes

end Cursor

inductive CursorKey where
  | identity (value : UInt64)
  | ordered (primary identity : UInt64)
  | name (value : String)
  deriving DecidableEq

/-- `read_u64`. -/
def readU64 (bytes : List UInt8) : Except CursorError (UInt64 × List UInt8) :=
  if bytes.length < 8 then .error .cursorInvalid
  else .ok (UInt64.ofNat (beValue (bytes.take 8)), bytes.drop 8)

namespace CursorKey

def encode : CursorKey → Except CursorError (List UInt8)
  | identity value => .ok (1 :: beBytes 8 value.toNat)
  | ordered primary tiebreaker =>
    .ok (2 :: (beBytes 8 primary.toNat ++ beBytes 8 tiebreaker.toNat))
  | name value =>
    if maxCursorNameBytes < value.utf8ByteSize then .error .cursorInvalid
    else .ok (3 :: UInt8.ofNat value.utf8ByteSize :: textBytes value)

/-- The key in front of some bytes, and the bytes behind it. -/
def decode : List UInt8 → Except CursorError (CursorKey × List UInt8)
  | [] => .error .cursorInvalid
  | tag :: rest =>
    if tag = 1 then do
      let (value, rest) ← readU64 rest
      pure (identity value, rest)
    else if tag = 2 then do
      let (primary, rest) ← readU64 rest
      let (tiebreaker, rest) ← readU64 rest
      pure (ordered primary tiebreaker, rest)
    else if tag = 3 then
      match rest with
      | [] => .error .cursorInvalid
      | length :: rest =>
        if rest.length < length.toNat then .error .cursorInvalid
        else match readText (rest.take length.toNat) with
          | some value => .ok (name value, rest.drop length.toNat)
          | none => .error .cursorInvalid
    else .error .cursorInvalid

end CursorKey

variable (hash : List UInt8 → Digest)

def queryBinding (query : ExplorerQuery) (size : PageSize) : List UInt8 :=
  (digestBytes (hash (query.identityBytes size))).take bindingBytes

/-- A token before its checksum. -/
def cursorBody (query : ExplorerQuery) (size : PageSize) (key : List UInt8) (ceiling : UInt64) :
    List UInt8 :=
  1 :: query.discriminant :: (key ++ (beBytes 8 ceiling.toNat ++ queryBinding hash query size))

def encodeCursor (query : ExplorerQuery) (size : PageSize) (key : CursorKey) (ceiling : UInt64) :
    Except CursorError Cursor := do
  let key ← key.encode
  let body := cursorBody hash query size key ceiling
  Cursor.fromBytes (body ++ digestBytes (hash body))

/-- The fields of a body: discriminant, key, ceiling, and binding. -/
def readBody (body : List UInt8) : Except CursorError (UInt8 × CursorKey × UInt64 × List UInt8) :=
  match body with
  | [] => .error .cursorInvalid
  | version :: rest =>
    if version ≠ 1 then .error .cursorInvalid
    else match rest with
      | [] => .error .cursorInvalid
      | discriminant :: rest => do
        let (key, rest) ← CursorKey.decode rest
        let (ceiling, rest) ← readU64 rest
        if rest.length ≠ bindingBytes then .error .cursorInvalid
        else pure (discriminant, key, ceiling, rest)

/-- `decode_cursor`; each error is an `ExplorerError::Cursor`. -/
def decodeCursor (cursor : Cursor) (query : ExplorerQuery) (size : PageSize) :
    Except CursorError (CursorKey × UInt64) :=
  let bytes := cursor.bytes
  if bytes.length ≤ 32 then .error .cursorInvalid
  else
    let body := bytes.take (bytes.length - 32)
    let checksum := bytes.drop (bytes.length - 32)
    if digestBytes (hash body) ≠ checksum then .error .cursorInvalid
    else do
      let (discriminant, key, ceiling, binding) ← readBody body
      -- The token is intact: what differs now is what it was issued for.
      if discriminant ≠ query.discriminant ∨ binding ≠ queryBinding hash query size then
        .error .cursorQueryMismatch
      else pure (key, ceiling)

end Tokens

end OxideBatch.Service
