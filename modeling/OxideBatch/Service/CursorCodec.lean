import Mathlib
import OxideBatch.Service.ExplorerCursor

/-! What a continuation token tells apart: the key and ceiling it carries, the query it
was issued for, and whether it is still as it was issued. -/

namespace OxideBatch.Service

open OxideBatch.Core OxideBatch.Plan OxideBatch.Repository OxideBatch.Lib

section Identities

/-- Two queries for executions of one age in whole seconds, and of two ages in fact. -/
def SameSeconds (query other : ExplorerQuery) : Prop :=
  ∃ age age' : StdDuration, query = .unresolvedExecutions age ∧
    other = .unresolvedExecutions age' ∧ age ≠ age' ∧ age.asSecs = age'.asSecs

/-- What the rows of a query are filtered by. -/
inductive QueryFilter where
  | unfiltered
  | job (name : JobName)
  | jobInstance (id : JobInstanceId)
  | execution (id : JobExecutionId)
  | step (id : StepExecutionId)
  | age (minimum : StdDuration)

namespace QueryFilter

/-- The filter as the writer ends with it. -/
def bytes : QueryFilter → List UInt8
  | unfiltered => prefixed 8 (textBytes "")
  | job name => prefixed 8 (textBytes name.value)
  | jobInstance id => beBytes 8 id.get
  | execution id => beBytes 8 id.get
  | step id => beBytes 8 id.get
  | age minimum => beBytes 8 minimum.asSecs

def shape : QueryFilter → Nat
  | unfiltered => 0
  | job _ => 1
  | jobInstance _ => 2
  | execution _ => 3
  | step _ => 4
  | age _ => 5

/-- The query of a discriminant over a filter. -/
def query : QueryFilter → UInt8 → ExplorerQuery
  | job name, 2 => .instances name
  | job name, 10 => .definitionRevisions name
  | job name, 11 => .definitionUpgrades name
  | jobInstance id, _ => .executions id
  | execution id, 4 => .stepExecutions id
  | execution id, 6 => .recoveryDecisions id
  | execution id, 7 => .flowDecisions id
  | execution id, 9 => .operatorRequests id
  | execution id, 12 => .forkLineages id
  | execution id, 13 => .nestedJobLinks id
  | execution id, 14 => .scopeResolutions id
  | step id, _ => .stepPartitions id
  | age minimum, _ => .unresolvedExecutions minimum
  | _, _ => .jobNames

end QueryFilter

/-- The filter of a query. -/
def filterOf : ExplorerQuery → QueryFilter
  | .jobNames => .unfiltered
  | .instances name | .definitionRevisions name | .definitionUpgrades name => .job name
  | .executions id => .jobInstance id
  | .stepExecutions id | .recoveryDecisions id | .flowDecisions id | .operatorRequests id
  | .scopeResolutions id | .forkLineages id | .nestedJobLinks id => .execution id
  | .unresolvedExecutions minimum => .age minimum
  | .stepPartitions id => .step id

/-- The shape of the filter behind each discriminant. -/
def shapeAt (discriminant : UInt8) : Nat :=
  [0, 0, 1, 2, 3, 5, 3, 3, 4, 3, 1, 1, 3, 3, 3].getD discriminant.toNat 0

private theorem query_filterOf (query : ExplorerQuery) :
    (filterOf query).query query.discriminant = query := by
  cases query <;> rfl

private theorem shape_filterOf (query : ExplorerQuery) :
    (filterOf query).shape = shapeAt query.discriminant := by
  cases query <;> rfl

private theorem identityBytes_eq (query : ExplorerQuery) (size : PageSize) :
    query.identityBytes size = CanonicalBytes.new "oxide-batch.explorer-query.v1" ++
      (prefixed 8 (textBytes query.name) ++ (beBytes 8 size.get ++ (filterOf query).bytes)) := by
  cases query <;>
    simp only [ExplorerQuery.identityBytes, CanonicalBytes.pushStr_eq, CanonicalBytes.pushU64_eq,
      filterOf, QueryFilter.bytes, List.append_assoc]

/-- The names in the order of their discriminants. -/
def queryNames : List String :=
  ["list_job_names", "list_instances", "list_executions", "list_step_executions",
    "list_unresolved_executions", "list_recovery_decisions", "list_flow_decisions",
    "list_step_partitions", "list_operator_requests", "list_definition_revisions",
    "list_definition_upgrades", "list_fork_lineages", "list_nested_job_links",
    "list_scope_resolutions"]

private theorem queryNames_at (query : ExplorerQuery) :
    queryNames[query.discriminant.toNat - 1]? = some query.name := by
  cases query <;> rfl

private theorem queryNames_nodup : queryNames.Nodup := by decide +kernel

private theorem name_lt (query : ExplorerQuery) : query.name.utf8ByteSize < 256 ^ 8 := by
  have short : ∀ name ∈ queryNames, name.utf8ByteSize < 256 ^ 8 := by decide +kernel
  exact short query.name (List.mem_of_getElem? (queryNames_at query))

private theorem discriminant_of_name {query other : ExplorerQuery}
    (names : query.name = other.name) :
    query.discriminant = other.discriminant := by
  have named := queryNames_at query
  have named' := queryNames_at other
  rw [← names] at named'
  obtain ⟨within, _⟩ := List.getElem?_eq_some_iff.mp named
  have same := (List.getElem?_inj within queryNames_nodup).mp (named.trans named'.symm)
  have positive : ∀ query : ExplorerQuery, 0 < query.discriminant.toNat := by
    intro query
    cases query <;> simp only [ExplorerQuery.discriminant] <;> decide
  have first := positive query
  have second := positive other
  exact UInt8.toNat_inj.mp (by omega)

private theorem asSecs_lt (age : StdDuration) : age.asSecs < 256 ^ 8 := by
  have within := age.isLt
  unfold StdDuration.asSecs
  unfold u64Limit at within
  omega

/-- Filters of one shape are told apart, up to the fraction of a second. -/
private theorem filter_of_bytes {filter filter' : QueryFilter}
    (shapes : filter.shape = filter'.shape)
    (same : filter.bytes = filter'.bytes) :
    filter = filter' ∨ ∃ minimum minimum' : StdDuration, filter = .age minimum ∧
      filter' = .age minimum' ∧ minimum ≠ minimum' ∧ minimum.asSecs = minimum'.asSecs := by
  have ids : ∀ {kind : IdentifierKind} {id id' : Id kind},
      beBytes 8 id.get = beBytes 8 id'.get → id = id' :=
    fun {_ id id'} same => Id.get_injective (beBytes_inj id.within id'.within same)
  cases filter <;> cases filter' <;> try cases shapes
  case unfiltered.unfiltered => exact .inl rfl
  case job.job name name' =>
    exact .inl (congrArg _ ((legible_token (by decide)).injOn trivial trivial same))
  case age.age minimum minimum' =>
    by_cases equal : minimum = minimum'
    · exact .inl (congrArg _ equal)
    · exact .inr ⟨minimum, minimum', rfl, rfl, equal,
        beBytes_inj (asSecs_lt minimum) (asSecs_lt minimum') same⟩
  all_goals exact .inl (congrArg _ (ids same))

/-- The name of a query and its filter tell the query, up to the fraction of a second. -/
private theorem query_of_name_filter {query other : ExplorerQuery} (names : query.name = other.name)
    (filters : (filterOf query).bytes = (filterOf other).bytes) :
    query = other ∨ SameSeconds query other := by
  have kinds := discriminant_of_name names
  have shapes : (filterOf query).shape = (filterOf other).shape := by
    rw [shape_filterOf, shape_filterOf, kinds]
  rcases filter_of_bytes shapes filters with same | ⟨age, age', first, second, differ, seconds⟩
  · left
    rw [← query_filterOf query, ← query_filterOf other, same, kinds]
  · right
    refine ⟨age, age', ?_, ?_, differ, seconds⟩
    · rw [← query_filterOf query, first]
      rfl
    · rw [← query_filterOf other, second]
      rfl

private theorem identityBytes_inj {query other : ExplorerQuery} {size size' : PageSize}
    (same : query.identityBytes size = other.identityBytes size') :
    (query = other ∨ SameSeconds query other) ∧ size = size' := by
  rw [identityBytes_eq, identityBytes_eq] at same
  obtain ⟨names, behind⟩ := legible_text 8 (name_lt query) (name_lt other)
    (List.append_cancel_left same)
  have small : ∀ size : PageSize, size.get < 256 ^ 8 := by
    intro size
    have valid := size.valid.2
    unfold maxPageSize at valid
    omega
  obtain ⟨sizes, filters⟩ := Legible.number 8 (small size) (small size') behind
  refine ⟨query_of_name_filter names filters, ?_⟩
  cases size
  cases size'
  cases sizes
  rfl

/-- Queries of one age in whole seconds share their identity. -/
private theorem identityBytes_sameSeconds {query other : ExplorerQuery}
    (same : SameSeconds query other)
    (size : PageSize) : query.identityBytes size = other.identityBytes size ∧
      query.discriminant = other.discriminant := by
  obtain ⟨age, age', rfl, rfl, _, seconds⟩ := same
  refine ⟨?_, rfl⟩
  rw [identityBytes_eq, identityBytes_eq]
  simp only [filterOf, QueryFilter.bytes, seconds, ExplorerQuery.name]

end Identities

section Keys

private theorem readU64_beBytes (value : UInt64) (rest : List UInt8) :
    readU64 (beBytes 8 value.toNat ++ rest) = .ok (value, rest) := by
  unfold readU64
  rw [if_neg (by simp), List.take_left' (length_beBytes 8 _), List.drop_left' (length_beBytes 8 _),
    beValue_beBytes value.toNat_lt, UInt64.ofNat_toNat]

/-- A key is read back from in front of anything. -/
private theorem decode_encode {key : CursorKey} {bytes : List UInt8}
    (encoded : key.encode = .ok bytes)
    (rest : List UInt8) : CursorKey.decode (bytes ++ rest) = .ok (key, rest) := by
  cases key with
  | identity value =>
    cases encoded
    simp only [List.cons_append, CursorKey.decode, if_pos, readU64_beBytes]
    rfl
  | ordered primary identity =>
    cases encoded
    simp only [List.cons_append, List.append_assoc, CursorKey.decode]
    rw [if_neg (by decide), if_pos trivial]
    simp only [bind, Except.bind, readU64_beBytes]
    rfl
  | name value =>
    by_cases long : maxCursorNameBytes < value.utf8ByteSize
    · rw [CursorKey.encode, if_pos long] at encoded
      cases encoded
    · rw [CursorKey.encode, if_neg long] at encoded
      cases encoded
      have size : (UInt8.ofNat value.utf8ByteSize).toNat = value.utf8ByteSize := by
        unfold maxCursorNameBytes at long
        rw [UInt8.toNat_ofNat']
        omega
      have length := length_textBytes value
      simp only [List.cons_append, CursorKey.decode]
      rw [if_neg (by decide), if_neg (by decide), if_pos trivial, if_neg (by simp [size, length]), size,
        List.take_left' length, List.drop_left' length, readText_textBytes]

private theorem encode_length {key : CursorKey} {bytes : List UInt8}
    (encoded : key.encode = .ok bytes) :
    bytes.length ≤ 130 := by
  cases key with
  | identity value =>
    cases encoded
    simp
  | ordered primary identity =>
    cases encoded
    simp
  | name value =>
    by_cases long : maxCursorNameBytes < value.utf8ByteSize
    · rw [CursorKey.encode, if_pos long] at encoded
      cases encoded
    · rw [CursorKey.encode, if_neg long] at encoded
      cases encoded
      unfold maxCursorNameBytes at long
      simp only [List.length_cons, length_textBytes]
      omega

/-- The fields of a body, whatever stands in the place of the binding. -/
private theorem readBody_fields {key : CursorKey} {bytes : List UInt8}
    (encoded : key.encode = .ok bytes)
    (discriminant : UInt8) (ceiling : UInt64) (binding : List UInt8) :
    readBody (1 :: discriminant :: (bytes ++ (beBytes 8 ceiling.toNat ++ binding))) =
      if binding.length ≠ bindingBytes then .error .cursorInvalid
      else .ok (discriminant, key, ceiling, binding) := by
  simp only [readBody]
  rw [if_neg (by decide), decode_encode encoded]
  simp only [bind, Except.bind, readU64_beBytes]
  rfl

end Keys

section Tokens

/-- One byte of a token changed or dropped, or one appended. -/
inductive Altered (bytes : List UInt8) : List UInt8 → Prop
  | changed {front back : List UInt8} {byte changed : UInt8}
      (holds : bytes = front ++ byte :: back) (differs : changed ≠ byte) :
      Altered bytes (front ++ changed :: back)
  | dropped {front back : List UInt8} {byte : UInt8} (holds : bytes = front ++ byte :: back) :
      Altered bytes (front ++ back)
  | appended (byte : UInt8) : Altered bytes (bytes ++ [byte])

variable {hash : List UInt8 → Digest} {cursor : Cursor} {query : ExplorerQuery} {size : PageSize}

private theorem length_digestBytes (digest : Digest) : (digestBytes digest).length = 32 :=
  length_beBytes 32 _

theorem Altered.ne {bytes other : List UInt8} (altered : Altered bytes other) : other ≠ bytes := by
  cases altered with
  | changed holds differs =>
    intro same
    rw [holds] at same
    exact differs (List.cons.inj (List.append_cancel_left same)).1
  | dropped holds =>
    intro same
    have lengths := congrArg List.length same
    rw [holds] at lengths
    simp at lengths
  | appended byte =>
    intro same
    have lengths := congrArg List.length same
    simp at lengths

/-- A token is its body and the 32 bytes behind it. -/
private theorem decodeCursor_parts {body checksum : List UInt8}
    (holds : cursor.bytes = body ++ checksum)
    (sized : checksum.length = 32) (written : body ≠ []) :
    decodeCursor hash cursor query size =
      if digestBytes (hash body) ≠ checksum then .error .cursorInvalid
      else (do
        let (discriminant, key, ceiling, binding) ← readBody body
        if discriminant ≠ query.discriminant ∨ binding ≠ queryBinding hash query size then
          .error .cursorQueryMismatch
        else pure (key, ceiling)) := by
  have some : 0 < body.length := List.length_pos_iff.mpr written
  have cut : (body ++ checksum).length - 32 = body.length := by
    rw [List.length_append]
    omega
  unfold decodeCursor
  simp only [holds]
  rw [if_neg (by rw [List.length_append]; omega), cut, List.take_left' rfl, List.drop_left' rfl]

/-- A token is refused where its checksum is off or its body does not read. -/
private theorem decodeCursor_refuses {body checksum : List UInt8}
    (holds : cursor.bytes = body ++ checksum) (sized : checksum.length = 32) (written : body ≠ [])
    (off : digestBytes (hash body) ≠ checksum ∨ readBody body = .error .cursorInvalid) :
    decodeCursor hash cursor query size = .error .cursorInvalid := by
  rw [decodeCursor_parts holds sized written]
  by_cases differs : digestBytes (hash body) ≠ checksum
  · rw [if_pos differs]
  · rw [if_neg differs, (off.resolve_left differs : readBody body = _)]
    rfl

/-- What encoding a cursor writes. -/
private theorem bytes_of_encodeCursor {key : CursorKey} {ceiling : UInt64}
    (encoded : encodeCursor hash query size key ceiling = .ok cursor) :
    ∃ bytes, key.encode = .ok bytes ∧
      cursor.bytes = cursorBody hash query size bytes ceiling ++
        digestBytes (hash (cursorBody hash query size bytes ceiling)) := by
  unfold encodeCursor at encoded
  cases keyed : key.encode with
  | error error =>
    rw [keyed] at encoded
    cases encoded
  | ok bytes =>
    rw [keyed] at encoded
    change Cursor.fromBytes _ = _ at encoded
    unfold Cursor.fromBytes at encoded
    split at encoded
    · cases encoded
      exact ⟨bytes, rfl, rfl⟩
    · cases encoded

private theorem length_queryBinding : (queryBinding hash query size).length = bindingBytes := by
  unfold queryBinding bindingBytes
  rw [List.length_take, length_digestBytes]
  rfl

/-- An encoded cursor under any query: it passes the query of its binding. -/
private theorem decode_of_encode {key : CursorKey} {ceiling : UInt64} {other : ExplorerQuery}
    {size' : PageSize} (encoded : encodeCursor hash query size key ceiling = .ok cursor) :
    decodeCursor hash cursor other size' =
      if query.discriminant ≠ other.discriminant ∨
          queryBinding hash query size ≠ queryBinding hash other size' then
        .error .cursorQueryMismatch
      else .ok (key, ceiling) := by
  obtain ⟨bytes, keyed, holds⟩ := bytes_of_encodeCursor encoded
  rw [decodeCursor_parts holds (length_digestBytes _) (List.cons_ne_nil _ _),
    if_neg (not_not.mpr rfl), cursorBody, readBody_fields keyed,
    if_neg (not_not.mpr length_queryBinding)]
  rfl

private theorem display_fromHex (cursor : Cursor) : Cursor.fromHex cursor.display = .ok cursor := by
  unfold Cursor.fromHex Cursor.display
  simp only [length_hexText]
  rw [if_neg (by omega), unhex_hexText]
  exact dif_pos cursor.valid

/-- A body whose last byte is lost, or with a byte behind it, has no binding. -/
private theorem readBody_binding {key : CursorKey} {bytes : List UInt8}
    (keyed : key.encode = .ok bytes)
    (ceiling : UInt64) :
    readBody (cursorBody hash query size bytes ceiling).dropLast = .error .cursorInvalid ∧
    ∀ byte, readBody (cursorBody hash query size bytes ceiling ++ [byte]) =
      .error .cursorInvalid := by
  have sized : (queryBinding hash query size).length = 8 := length_queryBinding
  have written : queryBinding hash query size ≠ [] := by
    intro empty
    rw [empty] at sized
    cases sized
  constructor
  · have shortened : (cursorBody hash query size bytes ceiling).dropLast =
        1 :: query.discriminant ::
          (bytes ++ (beBytes 8 ceiling.toNat ++ (queryBinding hash query size).dropLast)) := by
      unfold cursorBody
      rw [List.dropLast_cons_of_ne_nil (List.cons_ne_nil _ _), List.dropLast_cons_of_ne_nil (by
        simp [written]), List.dropLast_append_of_ne_nil (by simp [written]),
        List.dropLast_append_of_ne_nil written]
    rw [shortened, readBody_fields keyed, if_pos (by simp [sized, bindingBytes])]
  · intro byte
    have lengthened : cursorBody hash query size bytes ceiling ++ [byte] =
        1 :: query.discriminant ::
          (bytes ++ (beBytes 8 ceiling.toNat ++ (queryBinding hash query size ++ [byte]))) := by
      simp [cursorBody]
    rw [lengthened, readBody_fields keyed, if_pos (by simp [sized, bindingBytes])]

/-- A byte of a token stands in its body or in its checksum. -/
private theorem body_or_checksum {body checksum front back : List UInt8} {byte : UInt8}
    (holds : body ++ checksum = front ++ byte :: back) :
    (∃ tail, body = front ++ byte :: tail ∧ back = tail ++ checksum) ∨
      ∃ head, front = body ++ head ∧ checksum = head ++ byte :: back := by
  rcases List.append_eq_append_iff.mp holds with ⟨head, fronts, checksums⟩ | ⟨tail, bodies, backs⟩
  · exact .inr ⟨head, fronts, checksums⟩
  · cases tail with
    | nil =>
      rw [List.append_nil] at bodies
      exact .inr ⟨[], by rw [List.append_nil, bodies], backs.symm⟩
    | cons first tail =>
      obtain ⟨rfl, rfl⟩ := List.cons.inj backs
      exact .inl ⟨tail, bodies, rfl⟩

/-- Where no altered body has the checksum of a body, every altered token is refused. -/
private theorem altered_refused {key : CursorKey} {bytes : List UInt8} {ceiling : UInt64}
    {altered : Cursor} {other : ExplorerQuery} {size' : PageSize}
    (keyed : key.encode = .ok bytes)
    (unforged : ∀ body, Altered (cursorBody hash query size bytes ceiling) body →
      hash body ≠ hash (cursorBody hash query size bytes ceiling))
    (change : Altered (cursorBody hash query size bytes ceiling ++
      digestBytes (hash (cursorBody hash query size bytes ceiling))) altered.bytes) :
    decodeCursor hash altered other size' = .error .cursorInvalid := by
  obtain ⟨short, long⟩ := @readBody_binding hash query size key bytes keyed ceiling
  have written : cursorBody hash query size bytes ceiling ≠ [] := List.cons_ne_nil _ _
  have two : 2 ≤ (cursorBody hash query size bytes ceiling).length := by simp [cursorBody]
  generalize cursorBody hash query size bytes ceiling = body at *
  have sized := length_digestBytes (hash body)
  generalize same : altered.bytes = token at change
  -- An altered body in front of the checksum of the body as it was.
  have inside : ∀ forged, Altered body forged → forged ≠ [] →
      token = forged ++ digestBytes (hash body) →
      decodeCursor hash altered other size' = .error .cursorInvalid := by
    intro forged change some parts
    exact decodeCursor_refuses (same.trans parts) sized some (.inl fun equal =>
      unforged forged change (legible_digest.injOn trivial trivial equal))
  cases change with
  | changed holds differs =>
    rcases body_or_checksum holds with ⟨tail, rfl, rfl⟩ | ⟨head, rfl, checksum⟩
    · exact inside _ (.changed rfl differs) (by simp) (by simp)
    · rw [checksum] at sized
      refine decodeCursor_refuses (same.trans (List.append_assoc _ _ _)) (by simpa using sized)
        written (.inl fun equal => differs ?_)
      exact (List.cons.inj (List.append_cancel_left (equal.symm.trans checksum))).1
  | @dropped front back byte holds =>
    rcases body_or_checksum holds with ⟨tail, rfl, rfl⟩ | ⟨head, rfl, checksum⟩
    · refine inside _ (.dropped rfl) ?_ (by simp)
      intro empty
      simp [List.append_eq_nil_iff.mp empty] at two
    · rw [checksum] at sized
      simp only [List.length_append, List.length_cons] at sized
      -- The last byte of the body is taken for the first of the checksum.
      have parts : altered.bytes = body.dropLast ++ (body.getLast written :: (head ++ back)) := by
        rw [same]
        conv_lhs => rw [← List.dropLast_append_getLast written]
        simp
      refine decodeCursor_refuses parts ?_ ?_ (.inr short)
      · simp only [List.length_cons, List.length_append]
        omega
      · rw [← List.length_pos_iff, List.length_dropLast]
        omega
  | appended byte =>
    cases split : digestBytes (hash body) with
    | nil => simp [split] at sized
    | cons first rest =>
      rw [split] at same sized
      have parts : altered.bytes = (body ++ [first]) ++ (rest ++ [byte]) := by
        rw [same]
        simp
      exact decodeCursor_refuses parts (by simpa using sized) (by simp) (.inr (long first))

/-- The part of a token under its checksum. -/
def Cursor.body (cursor : Cursor) : List UInt8 := cursor.bytes.take (cursor.bytes.length - 32)

/-- Encoding fails only at a key that has no encoding. -/
private theorem encodeCursor_total {key : CursorKey} {bytes : List UInt8} (ceiling : UInt64)
    (keyed : key.encode = .ok bytes) :
    ∃ cursor, encodeCursor hash query size key ceiling = .ok cursor := by
  have short := encode_length keyed
  have binding := @length_queryBinding hash query size
  have valid : cursorBody hash query size bytes ceiling ++
      digestBytes (hash (cursorBody hash query size bytes ceiling)) ≠ [] ∧
      (cursorBody hash query size bytes ceiling ++
        digestBytes (hash (cursorBody hash query size bytes ceiling))).length ≤ maxCursorBytes := by
    refine ⟨List.append_ne_nil_of_left_ne_nil (List.cons_ne_nil _ _) _, ?_⟩
    simp only [cursorBody, List.length_append, List.length_cons, length_beBytes, binding,
      length_digestBytes, bindingBytes, maxCursorBytes]
    omega
  refine ⟨⟨_, valid⟩, ?_⟩
  unfold encodeCursor
  rw [keyed]
  exact dif_pos valid

private theorem body_of_encodeCursor {key : CursorKey} {ceiling : UInt64}
    (encoded : encodeCursor hash query size key ceiling = .ok cursor) :
    ∃ bytes, key.encode = .ok bytes ∧ cursor.body = cursorBody hash query size bytes ceiling ∧
      cursor.bytes = cursor.body ++ digestBytes (hash cursor.body) := by
  obtain ⟨bytes, keyed, holds⟩ := bytes_of_encodeCursor encoded
  have cut : cursor.body = cursorBody hash query size bytes ceiling := by
    unfold Cursor.body
    rw [holds, List.length_append, length_digestBytes, Nat.add_sub_cancel, List.take_left' rfl]
  exact ⟨bytes, keyed, cut, by rw [cut, holds]⟩

end Tokens

section Contract

variable (hash : List UInt8 → Digest)

/-- What a token issued for a query owes to its holder: its key and ceiling under the query
it was issued for, and a refusal that tells another query from a token that is not intact. -/
structure Continues (query other : ExplorerQuery) (size size' : PageSize) (key : CursorKey)
    (ceiling : UInt64) (cursor : Cursor) : Prop where
  own : decodeCursor hash cursor query size = .ok (key, ceiling)
  text : (Cursor.fromHex cursor.display).bind
    (fun read => decodeCursor hash read query size) = .ok (key, ceiling)
  elsewhere : (other, size') ≠ (query, size) →
    decodeCursor hash cursor other size' = .error .cursorQueryMismatch
  altered : ∀ token, Altered cursor.bytes token → ∀ query size, (Cursor.fromBytes token).bind
    (fun altered => decodeCursor hash altered query size) = .error .cursorInvalid

/-- The checksum of a token is that of no token altered from it. -/
def Unforged (cursor : Cursor) : Prop :=
  Set.InjOn hash (insert cursor.body {altered | Altered cursor.body altered})

/-- Two queries have one binding only where they have one identity. -/
def Unbound (query other : ExplorerQuery) (size size' : PageSize) : Prop :=
  Set.InjOn (fun bytes => (digestBytes (hash bytes)).take bindingBytes)
    {query.identityBytes size, other.identityBytes size'}

variable {hash} {query other : ExplorerQuery} {size size' : PageSize} {key : CursorKey}
  {ceiling : UInt64} {cursor : Cursor}

/-- Under another query the token is refused, up to the fraction of a second. -/
private theorem decode_elsewhere (encoded : encodeCursor hash query size key ceiling = .ok cursor)
    (unbound : Unbound hash query other size size')
    (apart : ¬ (SameSeconds query other ∧ size = size')) (differ : (other, size') ≠ (query, size)) :
    decodeCursor hash cursor other size' = .error .cursorQueryMismatch := by
  rw [decode_of_encode encoded]
  apply if_pos
  right
  intro bound
  obtain ⟨queries, sizes⟩ := identityBytes_inj (unbound (Set.mem_insert _ _)
    (Set.mem_insert_of_mem _ rfl) bound)
  rcases queries with same | seconds
  · exact differ (by rw [same, sizes])
  · exact apart ⟨seconds, sizes⟩

/-- A query of one age in whole seconds takes the token for its own. -/
private theorem decode_sameSeconds (encoded : encodeCursor hash query size key ceiling = .ok cursor)
    (seconds : SameSeconds query other) :
    decodeCursor hash cursor other size = .ok (key, ceiling) := by
  obtain ⟨identities, discriminants⟩ := identityBytes_sameSeconds seconds size
  rw [decode_of_encode encoded]
  apply if_neg
  rintro (kinds | bindings)
  · exact kinds discriminants
  · exact bindings (by unfold queryBinding; rw [identities])

/-- The codec keeps its contract exactly where the queries do not differ in the fraction
of a second of their age alone. -/
theorem cursor_continues_iff (encoded : encodeCursor hash query size key ceiling = .ok cursor)
    (unforged : Unforged hash cursor) (unbound : Unbound hash query other size size') :
    Continues hash query other size size' key ceiling cursor ↔
      ¬ (SameSeconds query other ∧ size = size') := by
  have own : decodeCursor hash cursor query size = .ok (key, ceiling) := by
    rw [decode_of_encode encoded, if_neg (by simp)]
  constructor
  · rintro kept ⟨seconds, rfl⟩
    obtain ⟨age, age', rfl, rfl, differ, same⟩ := seconds
    have refused := kept.elsewhere (fun equal => differ
      (ExplorerQuery.unresolvedExecutions.inj (Prod.mk.inj equal).1).symm)
    rw [decode_sameSeconds encoded ⟨age, age', rfl, rfl, differ, same⟩] at refused
    cases refused
  · intro apart
    refine ⟨own, ?_, decode_elsewhere encoded unbound apart, ?_⟩
    · rw [display_fromHex]
      exact own
    · intro token change asked asked'
      obtain ⟨bytes, keyed, cut, holds⟩ := body_of_encodeCursor encoded
      unfold Cursor.fromBytes
      split
      · rename_i valid
        rw [holds, cut] at change
        refine altered_refused keyed ?_ change
        intro forged altered same
        rw [← cut] at altered same
        exact altered.ne (unforged (Set.mem_insert_of_mem _ altered) (Set.mem_insert _ _) same)
      · rfl

end Contract

section Instances

theorem Altered.length_le {bytes other : List UInt8} (altered : Altered bytes other) :
    other.length ≤ bytes.length + 1 := by
  cases altered with
  | changed holds _ =>
    rw [holds]
    simp
  | dropped holds =>
    rw [holds]
    simp
    omega
  | appended byte => simp

/-- Tokens of an identity key are short. -/
private theorem unforged_spelledHash {query : ExplorerQuery} {size : PageSize}
    {value ceiling : UInt64}
    {cursor : Cursor}
    (encoded : encodeCursor spelledHash query size (.identity value) ceiling = .ok cursor) :
    Unforged spelledHash cursor := by
  obtain ⟨bytes, keyed, cut, _⟩ := body_of_encodeCursor encoded
  cases keyed
  have binding := @length_queryBinding spelledHash query size
  have short : cursor.body.length = 27 := by
    rw [cut]
    simp [cursorBody, binding, bindingBytes]
  apply spelledHash_injOn.mono
  rintro other (rfl | altered)
  · change cursor.body.length ≤ 31
    omega
  · have longer := altered.length_le
    change other.length ≤ 31
    omega

def tenRows : PageSize := ⟨10, by decide⟩

theorem job_token_continues :
    ∃ cursor, encodeCursor spelledHash .jobNames tenRows (.identity 7) 9 = .ok cursor ∧
      Continues spelledHash .jobNames (.instances ⟨"load", by decide⟩) tenRows tenRows
        (.identity 7) 9 cursor := by
  obtain ⟨cursor, encoded⟩ := @encodeCursor_total spelledHash .jobNames tenRows _ _ 9
    (rfl : (CursorKey.identity 7).encode = _)
  refine ⟨cursor, encoded, (cursor_continues_iff encoded (unforged_spelledHash encoded) ?_).mpr ?_⟩
  · rintro left (rfl | rfl) right (rfl | rfl) same
    · rfl
    · exact absurd same (by decide +kernel)
    · exact absurd same (by decide +kernel)
    · rfl
  · rintro ⟨⟨age, age', equal, _⟩, _⟩
    cases equal

/-- Executions older than a minute, and older than a minute and a half second. -/
theorem fraction_of_age_unbound :
    ∃ cursor, encodeCursor spelledHash (.unresolvedExecutions ⟨60 * 10 ^ 9, by decide⟩) tenRows
        (.identity 7) 9 = .ok cursor ∧
      Unforged spelledHash cursor ∧
      Unbound spelledHash (.unresolvedExecutions ⟨60 * 10 ^ 9, by decide⟩)
        (.unresolvedExecutions ⟨60 * 10 ^ 9 + 5 * 10 ^ 8, by decide⟩) tenRows tenRows ∧
      decodeCursor spelledHash cursor
        (.unresolvedExecutions ⟨60 * 10 ^ 9 + 5 * 10 ^ 8, by decide⟩) tenRows =
          .ok (.identity 7, 9) ∧
      ¬ Continues spelledHash (.unresolvedExecutions ⟨60 * 10 ^ 9, by decide⟩)
        (.unresolvedExecutions ⟨60 * 10 ^ 9 + 5 * 10 ^ 8, by decide⟩) tenRows tenRows
        (.identity 7) 9 cursor := by
  obtain ⟨cursor, encoded⟩ := @encodeCursor_total spelledHash
    (.unresolvedExecutions ⟨60 * 10 ^ 9, by decide⟩) tenRows _ _ 9
    (rfl : (CursorKey.identity 7).encode = _)
  have seconds : SameSeconds (.unresolvedExecutions ⟨60 * 10 ^ 9, by decide⟩)
      (.unresolvedExecutions ⟨60 * 10 ^ 9 + 5 * 10 ^ 8, by decide⟩) :=
    ⟨_, _, rfl, rfl, by decide, by decide⟩
  have taken := decode_sameSeconds encoded seconds
  refine ⟨cursor, encoded, unforged_spelledHash encoded, ?_, taken, fun kept => ?_⟩
  · unfold Unbound
    rw [(identityBytes_sameSeconds seconds tenRows).1, Set.pair_eq_singleton]
    exact Set.injOn_singleton _ _
  · have refused := kept.elsewhere (by decide)
    rw [taken] at refused
    cases refused

end Instances

end OxideBatch.Service
