import OxideBatch.Core.ComponentChecksum
import OxideBatch.Core.DurableState
import OxideBatch.Core.JsonText
import OxideBatch.Core.JsonWalk

/-! Durable states written and read again: what was encoded is read back as it was, and what
was read is written to an envelope that is read again wherever it keeps the byte limit. -/

namespace OxideBatch.Core.Durable

open OxideBatch.Lib Program

variable {T : Type} {fromSlice : List UInt8 → Option Json} {floats : String → Bool}

/-- `serde_json` loses nothing: it parses to documents that can be held, and parses what it
has written of one back to it, within its limit on nesting. -/
structure Lossless (floats : String → Bool) (fromSlice : List UInt8 → Option Json) : Prop where
  held : ∀ bytes document, fromSlice bytes = some document → document.held floats = true
  back : ∀ document : Json, document.held floats = true → document.depth ≤ 127 →
    fromSlice document.toBytes = some document

section Members

private theorem one_le_depth (document : Json) : 1 ≤ document.depth := by
  cases document <;> simp [Json.depth]

/-- A member of an object is held and is less deep than it. -/
private theorem member_held {key : String} {members : List (String × Json)} {value : Json}
    (held : Json.heldMembers floats members = true)
    (found : Json.member? key members = some value) :
    value.held floats = true ∧ value.depth ≤ Json.deepestMember members := by
  induction members with
  | nil => cases found
  | cons entry members ih =>
    obtain ⟨other, first⟩ := entry
    simp only [Json.heldMembers, Bool.and_eq_true] at held
    rw [Json.member?_cons] at found
    rw [Json.deepestMember]
    split at found
    · cases found
      exact ⟨held.1.1, Nat.le_max_left _ _⟩
    · obtain ⟨kept, below⟩ := ih held.2 found
      exact ⟨kept, below.trans (Nat.le_max_right _ _)⟩

variable (kind : DurableStateKind) (schemaId : StateSchemaId) (schemaVersion : StateSchemaVersion)

/-- The members of an envelope in key order. -/
private theorem envelope_eq (payload : Json) :
    envelope kind schemaId schemaVersion payload = .object
      [("format", .string kind.format), ("format_version", .integer formatVersion),
        ("payload", payload), ("schema", .string schemaId.value),
        ("schema_version", .integer schemaVersion.get)] := by
  rfl

private theorem depth_envelope (payload : Json) :
    (envelope kind schemaId schemaVersion payload).depth = 1 + payload.depth := by
  have some := one_le_depth payload
  simp only [envelope_eq, Json.depth, Json.deepestMember]
  omega

private theorem held_envelope {payload : Json} (held : payload.held floats = true) :
    (envelope kind schemaId schemaVersion payload).held floats = true := by
  have small : (schemaVersion.get : Int) < 2 ^ 64 := by
    have within := schemaVersion.within
    omega
  have number : (Json.integer schemaVersion.get).held floats = true := by
    rw [Json.held, decide_eq_true_eq]
    exact ⟨by omega, small⟩
  have format : (Json.integer formatVersion).held floats = true := rfl
  rw [envelope_eq]
  simp only [Json.held, Json.heldMembers, held, Bool.true_and, Bool.and_true, List.head?_cons,
    Option.all_some] at number format ⊢
  rw [number, format]
  have order : "format" < "format_version" ∧ "format_version" < "payload" ∧ "payload" < "schema" ∧
      "schema" < "schema_version" := by decide
  simp [order]

end Members

section Fields

@[simp] theorem refuse_ok {condition : Prop} [Decidable condition] {error : StateError}
    {answer : Unit} : refuse condition error = .ok answer ↔ ¬ condition := by
  unfold refuse
  split <;> simp [*]

@[simp] theorem demand_ok {α : Type} {value : Option α} {error : StateError} {answer : α} :
    demand value error = .ok answer ↔ value = some answer := by
  cases value <;> simp [demand]

private theorem newSchemaId_value (schemaId : StateSchemaId) :
    newSchemaId schemaId.value = .ok schemaId := by
  have token : Token.new 128 schemaId.value = some schemaId := Token.new_ok.mpr rfl
  have valid := schemaId.valid
  simp only [validText, Bool.and_eq_true, Bool.not_eq_true', decide_eq_true_eq,
    List.isEmpty_eq_false_iff] at valid
  obtain ⟨⟨⟨⟨nonempty, sized⟩, first⟩, last⟩, _⟩ := valid
  simp only [newSchemaId, bind_ok, refuse_ok, demand_ok, first, last, token, Bool.false_eq_true,
    or_self, not_false_eq_true, nonempty, exists_const, and_true, true_and]
  exact Nat.not_lt.mpr sized

private theorem newSchemaVersion_get (version : StateSchemaVersion) :
    newSchemaVersion version.get = .ok version := by
  have whole : Positive.new (UInt32.ofNat version.get) = some version := Positive.new_ok.mpr rfl
  rw [newSchemaVersion, whole]
  rfl

private theorem unsigned_natCast {bound value : Nat} (below : value < bound)
    (small : bound ≤ 2 ^ 64) :
    VersionedState.unsigned bound (.integer value) = some value := by
  rw [VersionedState.unsigned, Json.asU64_natCast (below.trans_le small)]
  exact if_pos below

end Fields

section RoundTrip

variable {kind : DurableStateKind} {limits : StateLimits} {state : VersionedState}

/-- Bytes that spell an envelope within the limits are read as its state. -/
private theorem fromJson_envelope {schemaId : StateSchemaId} {schemaVersion : StateSchemaVersion}
    {payload : Json} {bytes : List UInt8}
    (parsed : fromSlice bytes = some (envelope kind schemaId schemaVersion payload))
    (isObject : ¬ payload.asObject.isNone = true)
    (shallow : (envelope kind schemaId schemaVersion payload).depth ≤ limits.depth) :
    VersionedState.fromJson fromSlice kind bytes limits =
      if limits.bytes < bytes.length then .error (.tooLarge kind limits.bytes)
      else .ok { schemaId, schemaVersion, payload, encodedBytes := bytes.length } := by
  by_cases large : limits.bytes < bytes.length
  · rw [if_pos large]
    simp only [VersionedState.fromJson, refuse, if_pos large]
    rfl
  rw [if_neg large]
  simp only [VersionedState.fromJson, bind_ok, refuse_ok, demand_ok, pure_ok, parsed,
    Option.some.injEq, exists_eq_left', exists_const]
  refine ⟨large, Nat.not_lt.mpr shallow, _, congrArg Json.asObject (envelope_eq _ _ _ _), ?_⟩
  simp only [Json.member?_cons, Json.member?_nil, String.reduceEq, if_true, if_false]
  exact ⟨_, rfl, not_not.mpr rfl, _,
    (Option.bind_some _ _).trans (unsigned_natCast (by decide) (by decide)), not_not.mpr rfl, _,
    rfl, _, newSchemaId_value _, _,
    (Option.bind_some _ _).trans (unsigned_natCast schemaVersion.within (by decide)), _,
    newSchemaVersion_get _, _, rfl, isObject, rfl⟩

/-- A written state is read back but for its size, where it keeps the byte limit. -/
theorem fromJson_toJson (lossless : Lossless floats fromSlice)
    (held : state.payload.held floats = true) (isObject : ¬ state.payload.asObject.isNone = true)
    (shallow : (envelope kind state.schemaId state.schemaVersion state.payload).depth ≤
      limits.depth) :
    VersionedState.fromJson fromSlice kind (state.toJson kind) limits =
      if limits.bytes < (state.toJson kind).length then .error (.tooLarge kind limits.bytes)
      else .ok { state with encodedBytes := (state.toJson kind).length } := by
  have within : limits.depth ≤ 64 := limits.depthWithin
  exact fromJson_envelope (lossless.back _ (held_envelope kind _ _ held) (by omega)) isObject
    shallow

/-- What the reader of envelopes accepts holds an object, within the limits. -/
private theorem fromJson_payload (lossless : Lossless floats fromSlice) {bytes : List UInt8}
    (read : VersionedState.fromJson fromSlice kind bytes limits = .ok state) :
    state.payload.held floats = true ∧ ¬ state.payload.asObject.isNone = true ∧
      (envelope kind state.schemaId state.schemaVersion state.payload).depth ≤ limits.depth := by
  simp only [VersionedState.fromJson, bind_ok, refuse_ok, demand_ok, pure_ok, exists_const] at read
  obtain ⟨_, document, parsed, shallow, members, isObject, _, _, _, _, _, _, _, _, _, _, _, _, _, _,
    payload, found, object, rfl⟩ := read
  cases document with
  | object members' =>
    cases isObject
    obtain ⟨held, below⟩ := member_held (lossless.held _ _ parsed) found
    refine ⟨held, object, ?_⟩
    rw [Json.depth, Nat.not_lt] at shallow
    rw [depth_envelope]
    exact (Nat.add_le_add_left below 1).trans shallow
  | null | bool _ | integer _ | float _ | string _ | array _ => cases isObject

/-- Durable states round-trip: an encoded one is read back equal and decodes as its payload
does; one that was read is written to bytes that are read again to the same state exactly
where they keep the byte limit. -/
theorem durable_state_round_trips (lossless : Lossless floats fromSlice) (kind : DurableStateKind)
    (codec : VersionedStateCodec T) (limits : StateLimits) :
    (∀ value state, VersionedState.encode fromSlice kind value codec limits = .ok state →
      VersionedState.fromJson fromSlice kind (state.toJson kind) limits = .ok state ∧
      state.decode fromSlice kind codec =
        (codec.decode state.payload.toBytes).mapError .codec) ∧
    ∀ bytes state, VersionedState.fromJson fromSlice kind bytes limits = .ok state →
      VersionedState.fromJson fromSlice kind (state.toJson kind) limits =
        if limits.bytes < (state.toJson kind).length then .error (.tooLarge kind limits.bytes)
        else .ok { state with encodedBytes := (state.toJson kind).length } := by
  constructor
  · intro value state encoded
    simp only [VersionedState.encode, VersionedState.fromParts, bind_ok, mapError_ok, refuse_ok,
      demand_ok, pure_ok, exists_const] at encoded
    obtain ⟨written, _, payload, parsed, isObject, fits, shallow, rfl⟩ := encoded
    constructor
    · refine (fromJson_toJson lossless (lossless.held _ _ parsed) isObject
        (Nat.not_lt.mp shallow)).trans ?_
      exact if_neg fits
    · have chain : upgradeSchemaChain fromSlice kind codec.currentVersion codec
          payload.toBytes = .ok payload.toBytes := by
        rw [upgradeSchemaChain, upgradeChain_current (le_refl codec.currentVersion)]
        rfl
      simp only [VersionedState.decode, refuse]
      rw [if_neg (not_not.mpr rfl), if_neg (lt_irrefl _), chain]
      rfl
  · intro bytes state read
    obtain ⟨held, isObject, shallow⟩ := fromJson_payload lossless read
    exact fromJson_toJson lossless held isObject shallow

end RoundTrip

section Respelling

/-- How a float is written: of the spellings that are not written, the one used below. -/
def respell (text : String) : String := if text = "1e5" then "100000.0" else text

/-- The texts that are written for floats. -/
def writtenFloat (text : String) : Bool :=
  text.toList.all Json.isNumeral && text.toList.any Json.isFloatMark && respell text = text

private theorem writtenFloat_spells : Json.Spells respell writtenFloat where
  numeral text written := by
    simp only [writtenFloat, Bool.and_eq_true, List.all_eq_true] at written
    exact written.1.1
  marked text written := by
    simp only [writtenFloat, Bool.and_eq_true] at written
    exact written.1.2
  kept text written := by
    simp only [writtenFloat, Bool.and_eq_true, decide_eq_true_eq] at written
    exact written.2

/-- A reader of JSON text that loses nothing. -/
private theorem readBytes_lossless : Lossless writtenFloat
    (Json.readBytes respell writtenFloat) where
  held _ _ := Json.held_of_readBytes
  back _ := Json.readBytes_toBytes writtenFloat_spells

def counterId : StateSchemaId := ⟨"counter", Eq.refl true⟩

/-- Counters, kept as objects of one integer. -/
def counterCodec : VersionedStateCodec Nat where
  schemaId := counterId
  currentVersion := 1
  upgrades := []
  encode value := .ok (Json.object [("n", .integer value)]).toBytes
  decode payload :=
    match Json.readBytes respell writtenFloat payload with
    | some (.object [("n", .integer value)]) => .ok value.toNat
    | _ => .error .invalidPayload

/-- Room for an envelope of 112 bytes. -/
def narrowLimits : StateLimits where
  bytes := 112
  depth := 16
  someBytes := by decide
  someDepth := defaultDepth_pos
  bytesWithin := by decide
  depthWithin := defaultDepth_within

theorem durable_state_round_trips_counter :
    let fromSlice := Json.readBytes respell writtenFloat
    ∃ state, VersionedState.encode fromSlice .checkpoint 5 counterCodec narrowLimits = .ok state ∧
      VersionedState.fromJson fromSlice .checkpoint (state.toJson .checkpoint) narrowLimits =
        .ok state ∧
      state.decode fromSlice .checkpoint counterCodec =
        (counterCodec.decode state.payload.toBytes).mapError .codec ∧
      VersionedState.fromJson fromSlice .checkpoint (state.toJson .checkpoint) narrowLimits =
        if narrowLimits.bytes < (state.toJson .checkpoint).length then
          .error (.tooLarge .checkpoint narrowLimits.bytes)
        else .ok { state with encodedBytes := (state.toJson .checkpoint).length } := by
  intro fromSlice
  obtain ⟨written, read⟩ := durable_state_round_trips readBytes_lossless .checkpoint counterCodec
    narrowLimits
  have parsed : fromSlice (Json.object [("n", .integer 5)]).toBytes =
      some (.object [("n", .integer 5)]) :=
    Json.readBytes_toBytes writtenFloat_spells (by decide) (by decide)
  have encoded : ∃ state,
      VersionedState.encode fromSlice .checkpoint 5 counterCodec narrowLimits = .ok state := by
    simp only [VersionedState.encode, VersionedState.fromParts, bind_ok, mapError_ok, refuse_ok,
      demand_ok, pure_ok, exists_const]
    exact ⟨_, _, rfl, _, parsed, by decide, by decide +kernel, by decide +kernel, rfl⟩
  obtain ⟨state, encoded⟩ := encoded
  obtain ⟨back, decoded⟩ := written 5 state encoded
  exact ⟨state, encoded, back, decoded, read _ state back⟩

/-- A checkpoint of 112 bytes in which a float is spelled `1e5`. -/
def spelledCheckpoint : List UInt8 :=
  (envelope .checkpoint counterId 1
    (.object [("n", .float "1e5")])).toBytes

/-- The float is written back as `100000.0`, and the state no longer fits the limit it was read
under. -/
theorem respelled_state_outgrows_limit :
    ∃ floats fromSlice, Lossless floats fromSlice ∧ ∃ state,
      VersionedState.fromJson fromSlice .checkpoint spelledCheckpoint narrowLimits = .ok state ∧
      VersionedState.fromJson fromSlice .checkpoint (state.toJson .checkpoint) narrowLimits =
        .error (.tooLarge .checkpoint 112) := by
  refine ⟨_, _, readBytes_lossless, ?_⟩
  have parsed : Json.readBytes respell writtenFloat spelledCheckpoint =
      some (envelope .checkpoint counterId 1
        (.object [("n", .float "100000.0")])) := by decide +kernel
  have read := @fromJson_envelope _ .checkpoint narrowLimits _ _ _ _ parsed (by decide) (by decide)
  rw [if_neg (by decide +kernel)] at read
  refine ⟨_, read, ?_⟩
  rw [fromJson_toJson readBytes_lossless (by decide) (by decide) (by decide),
    if_pos (by decide +kernel)]
  rfl

end Respelling

end OxideBatch.Core.Durable
