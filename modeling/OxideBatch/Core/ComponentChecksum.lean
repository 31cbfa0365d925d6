import OxideBatch.Core.ComponentState
import OxideBatch.Lib.Program

/-! A component-state envelope is stored and read back as it is, and no column of it
can change under the same checksum. -/

namespace OxideBatch.Core

open OxideBatch.Lib Program

/-- No token holds the byte that terminates it. -/
theorem Token.zero_notMem {maxBytes : Nat} (token : Token maxBytes) :
    0 ∉ textBytes token.value := by
  apply zero_notMem_textBytes
  intro character member zero
  have clear := token.valid
  simp only [validText, Bool.and_eq_true, Bool.not_eq_true', List.any_eq_false] at clear
  exact clear.2 character member (by simp [isControl, zero])

theorem Token.value_injective {maxBytes : Nat} :
    Function.Injective (@Token.value maxBytes) := by
  intro left right same
  cases left
  cases right
  cases same
  rfl

theorem Positive.beBytes_inj {left right : Positive} (same : beBytes 4 left.get = beBytes 4 right.get) :
    left = right :=
  Positive.get_injective (@Lib.beBytes_inj 4 _ _ left.within right.within same)

/-- An inline payload never passes for an external one, and each is read back from its
marker. -/
theorem marker_injective : Function.Injective ComponentStatePayload.marker := by
  intro left right same
  cases left with
  | inline bytes =>
    cases right with
    | inline bytes' => rw [(List.cons.inj same).2]
    | external reference =>
      have heads := (List.cons.inj same).1
      exact absurd heads (by decide)
  | external reference =>
    cases right with
    | inline bytes =>
      have heads := (List.cons.inj same).1
      exact absurd heads (by decide)
    | external reference' =>
      obtain ⟨contents, lengths⟩ := List.append_inj (List.cons.inj same).2 (by simp)
      have contentId := Vector.toList_inj.mp contents
      have encodedLen := UInt64.toNat_inj.mp (@Lib.beBytes_inj 8 _ _
        reference.encodedLen.toNat_lt reference'.encodedLen.toNat_lt lengths)
      cases reference
      cases reference'
      cases contentId
      cases encodedLen
      rfl

section Input

variable {streamNamespace streamNamespace' : ComponentStreamIdentity}
  {schemaId schemaId' : StateSchemaId} {schemaVersion schemaVersion' : StateSchemaVersion}
  {codecId codecId' : CodecId} {codecVersion codecVersion' : CodecVersion}

/-- The bytes under a checksum determine every field: each identifier ends at its
terminator and each version has four bytes. -/
theorem canonicalChecksumInput_inj {marker marker' : List UInt8}
    (same : canonicalChecksumInput streamNamespace schemaId schemaVersion codecId codecVersion
        marker =
      canonicalChecksumInput streamNamespace' schemaId' schemaVersion' codecId' codecVersion'
        marker') :
    streamNamespace = streamNamespace' ∧ schemaId = schemaId' ∧ schemaVersion = schemaVersion' ∧
      codecId = codecId' ∧ codecVersion = codecVersion' ∧ marker = marker' := by
  have fields := List.append_cancel_left same
  obtain ⟨namespaces, fields⟩ := terminated_inj streamNamespace.zero_notMem
    streamNamespace'.zero_notMem fields
  obtain ⟨schemas, fields⟩ := terminated_inj schemaId.zero_notMem schemaId'.zero_notMem fields
  obtain ⟨versions, fields⟩ := List.append_inj fields (by simp)
  obtain ⟨codecs, fields⟩ := terminated_inj codecId.zero_notMem codecId'.zero_notMem fields
  obtain ⟨codecVersions, markers⟩ := List.append_inj fields (by simp)
  exact ⟨Token.value_injective (textBytes_injective namespaces),
    Token.value_injective (textBytes_injective schemas), Positive.beBytes_inj versions,
    Token.value_injective (textBytes_injective codecs), Positive.beBytes_inj codecVersions, markers⟩

end Input

variable {Checksum : Type} {format : StateFormat Checksum}

/-- The bytes are a JSON object within the limits. -/
def Fits (format : StateFormat Checksum) (limits : StateLimits) (bytes : List UInt8) : Prop :=
  bytes.length ≤ limits.bytes ∧ ∃ value, format.fromSlice bytes = some value ∧
    value.asObject ≠ none ∧ value.depth ≤ limits.depth

theorem Fits.widen {limits wide : StateLimits} {bytes : List UInt8} (fits : Fits format limits bytes)
    (within : wide.AtLeast limits) : Fits format wide bytes := by
  obtain ⟨short, value, read, object, shallow⟩ := fits
  exact ⟨short.trans within.1, value, read, object, shallow.trans within.2⟩

section Checks

@[simp] theorem refuse_ok {condition : Prop} [Decidable condition] {error : ComponentStateError}
    {answer : Unit} : refuse condition error = .ok answer ↔ ¬ condition := by
  by_cases holds : condition
  · simp [refuse, holds]
  · simp [refuse, holds]

@[simp] theorem demand_ok {α : Type} {value : Option α} {error : ComponentStateError} {result : α} :
    demand value error = .ok result ↔ value = some result := by
  cases value with
  | none => simp [demand]
  | some value => simp [demand]

theorem checkPayload_ok {unreadable : ComponentStateError} {limits : StateLimits}
    {bytes : List UInt8} {answer : Unit} :
    bytes.length ≤ limits.bytes ∧ checkPayload format unreadable limits bytes = .ok answer ↔
      Fits format limits bytes := by
  simp [checkPayload, Fits]

theorem Token.new_ok {maxBytes : Nat} {text : String} {token : Token maxBytes} :
    Token.new maxBytes text = some token ↔ token.value = text := by
  unfold Token.new
  constructor
  · intro made
    split at made
    · cases made
      rfl
    · cases made
  · intro same
    subst same
    rw [dif_pos token.valid]

theorem Positive.new_ok {value : UInt32} {positive : Positive} :
    Positive.new value = some positive ↔ UInt32.ofNat positive.get = value := by
  unfold Positive.new
  constructor
  · intro made
    split at made
    · cases made
      simp
    · cases made
  · intro same
    subst same
    have get : (UInt32.ofNat positive.get).toNat = positive.get :=
      UInt32.toNat_ofNat_of_lt positive.within
    rw [dif_pos (by rw [get]; exact positive.positive)]
    exact congrArg some (Positive.get_injective get)

theorem CodecId.new_ok {text : String} {codecId : CodecId} :
    CodecId.new text = .ok codecId ↔ codecId.value = text := by
  simp only [CodecId.new, bind_ok, refuse_ok, demand_ok, Token.new_ok]
  constructor
  · rintro ⟨_, _, _, _, same⟩
    exact same
  · intro same
    have valid := codecId.valid
    rw [same] at valid
    simp only [validText, Bool.and_eq_true, Bool.not_eq_true', List.isEmpty_eq_false_iff,
      decide_eq_true_eq] at valid
    exact ⟨(), valid.1.1.1.1, (), Nat.not_lt.mpr valid.1.1.1.2, same⟩

private theorem resolve_ok {identifier version : UInt16} {algorithm : ChecksumAlgorithm} :
    ChecksumAlgorithm.resolve identifier version = some algorithm ↔
      algorithm.identifier = identifier ∧ algorithm.algorithmVersion = version := by
  cases algorithm
  unfold ChecksumAlgorithm.resolve
  split
  · rename_i current
    simp [ChecksumAlgorithm.identifier, ChecksumAlgorithm.algorithmVersion, current]
  · rename_i other
    simp only [reduceCtorEq, false_iff, ChecksumAlgorithm.identifier,
      ChecksumAlgorithm.algorithmVersion]
    rintro ⟨rfl, rfl⟩
    exact other ⟨rfl, rfl⟩

end Checks

namespace ComponentStateEnvelope

/-- What every constructor establishes: the checksum covers the fields, and an inline
payload keeps the limits. -/
structure Sealed (format : StateFormat Checksum) (limits : StateLimits)
    (envelope : ComponentStateEnvelope Checksum) : Prop where
  checksum : envelope.checksum = format.sha256 (canonicalChecksumInput envelope.streamNamespace
    envelope.schemaId envelope.schemaVersion envelope.codecId envelope.codecVersion
    envelope.payload.marker)
  fits : ∀ bytes, envelope.payload = .inline bytes → Fits format limits bytes
  encodedLen : envelope.encodedLen = envelope.payload.inlineLen

theorem Sealed.widen {limits wide : StateLimits} {envelope : ComponentStateEnvelope Checksum}
    (holds : Sealed format limits envelope) (within : wide.AtLeast limits) :
    Sealed format wide envelope :=
  ⟨holds.checksum, fun bytes inline => (holds.fits bytes inline).widen within, holds.encodedLen⟩

section Constructors

variable {T : Type} {codec : ComponentStateCodec T} {limits : StateLimits}
  {envelope envelope' : ComponentStateEnvelope Checksum}
  {streamNamespace : ComponentStreamIdentity} {schemaId : StateSchemaId}
  {schemaVersion : StateSchemaVersion} {codecId : CodecId} {codecVersion : CodecVersion}

private theorem stamped_sealed {algorithm : ChecksumAlgorithm} {payload : ComponentStatePayload}
    (fits : ∀ bytes, payload = .inline bytes → Fits format limits bytes) :
    Sealed format limits (stamped format streamNamespace schemaId schemaVersion codecId codecVersion
      algorithm payload) :=
  ⟨rfl, fits, rfl⟩

theorem stamped_inline {algorithm : ChecksumAlgorithm} {bytes : List UInt8}
    (fits : Fits format limits bytes) :
    Sealed format limits (stamped format streamNamespace schemaId schemaVersion codecId codecVersion
      algorithm (.inline bytes)) := by
  apply stamped_sealed
  intro bytes' inline
  cases inline
  exact fits

theorem encode_sealed {value : T}
    (encoded : encode format streamNamespace value codec limits = .ok envelope) :
    Sealed format limits envelope := by
  simp only [encode, bind_ok, mapError_ok, refuse_ok, pure_ok, not_lt] at encoded
  obtain ⟨bytes, _, _, short, _, shaped, rfl⟩ := encoded
  exact stamped_inline (checkPayload_ok.mp ⟨short, shaped⟩)

theorem fromTransformedInline_sealed {bytes : List UInt8}
    (transformed : fromTransformedInline format envelope schemaId schemaVersion bytes limits =
      .ok envelope') : Sealed format limits envelope' := by
  unfold fromTransformedInline at transformed
  split at transformed
  · cases transformed
  · simp only [bind_ok, refuse_ok, pure_ok, not_lt] at transformed
    obtain ⟨_, short, _, shaped, rfl⟩ := transformed
    exact stamped_inline (checkPayload_ok.mp ⟨short, shaped⟩)

theorem external_sealed {reference : ExternalStateReference} :
    Sealed format limits (external format streamNamespace schemaId schemaVersion codecId
      codecVersion reference) := by
  apply stamped_sealed
  intro bytes inline
  cases inline

/-- Reading columns gives the envelope that is stored in them. -/
theorem fromDurable_ok [DecidableEq Checksum] {columns : DurableColumns Checksum} :
    fromDurable format columns limits = .ok envelope ↔
      Sealed format limits envelope ∧ envelope.columns = columns := by
  simp only [fromDurable, bind_ok, demand_ok, refuse_ok, Token.new_ok, Positive.new_ok,
    CodecId.new_ok, resolve_ok, pure_ok, not_lt, not_not]
  constructor
  · rintro ⟨schemaId, schemas, schemaVersion, versions, codecId, codecs, codecVersion,
      codecVersions, algorithm, ⟨identifiers, algorithmVersions⟩, _, short, _, expected, _, shaped,
      rfl⟩
    refine ⟨⟨expected.symm, ?_, rfl⟩, ?_⟩
    · intro bytes inline
      change columns.payload = _ at inline
      rw [inline] at short shaped
      exact checkPayload_ok.mp ⟨short, shaped⟩
    · cases columns
      simp only [ComponentStateEnvelope.columns, schemas, versions, codecs, codecVersions,
        identifiers, algorithmVersions]
  · rintro ⟨holds, rfl⟩
    refine ⟨envelope.schemaId, rfl, envelope.schemaVersion, rfl, envelope.codecId, rfl,
      envelope.codecVersion, rfl, envelope.checksumAlgorithm, ⟨rfl, rfl⟩, (), ?_, (),
      holds.checksum.symm, (), ?_, ?_⟩
    · change envelope.payload.inlineLen ≤ _
      cases inline : envelope.payload with
      | inline bytes => exact (holds.fits bytes inline).1
      | external reference => exact Nat.zero_le _
    · change checkStored format limits envelope.payload = _
      cases inline : envelope.payload with
      | inline bytes => exact (checkPayload_ok.mpr (holds.fits bytes inline)).2
      | external reference => rfl
    · change { envelope with encodedLen := envelope.payload.inlineLen } = envelope
      rw [← holds.encodedLen]

end Constructors

end ComponentStateEnvelope

end OxideBatch.Core
