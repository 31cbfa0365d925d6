import OxideBatch.Core.ComponentChecksum

/-! Opening a component-state envelope under a codec: what the migration in front of it
changes, and that decoding sees the same state before and behind it. -/

namespace OxideBatch.Core

open OxideBatch.Lib Program

variable {Checksum T : Type} {format : StateFormat Checksum}

private theorem checkUpgraded_ok {bytes : List UInt8}
    (accepted : checkUpgraded format bytes = .ok ()) :
    Fits format .ceilings bytes := by
  unfold checkUpgraded at accepted
  split at accepted
  · cases accepted
  · rename_i short
    split at accepted
    · cases accepted
    · rename_i value read
      split at accepted
      · cases accepted
      · rename_i object
        split at accepted
        · cases accepted
        · rename_i shallow
          exact ⟨not_lt.mp short, value, read, by simpa using object, not_lt.mp shallow⟩

private theorem checkUpgradedComponentState_ok {bytes : List UInt8}
    (accepted : checkUpgradedComponentState format bytes = .ok ()) :
    Fits format .ceilings bytes := by
  simp only [checkUpgradedComponentState, bind_ok, refuse_ok, demand_ok, not_lt,
    Option.isNone_iff_eq_none] at accepted
  obtain ⟨_, short, value, read, _, object, shallow⟩ := accepted
  exact ⟨short, value, read, object, shallow⟩

private theorem upgradeSchemaChain_ok {recorded : StateSchemaVersion}
    {codec : ComponentStateCodec T}
    {bytes migrated : List UInt8} :
    upgradeSchemaChain format recorded codec bytes = .ok migrated ↔
      Leads codec.upgrades (checkUpgraded format) codec.currentVersion maxUpgradeChain recorded bytes
        migrated := by
  rw [upgradeSchemaChain, mapError_ok, upgradeChain_ok_iff]

private theorem upgradeCodecChain_ok {recorded : CodecVersion} {codec : ComponentStateCodec T}
    {bytes migrated : List UInt8} :
    upgradeCodecChain format recorded codec bytes = .ok migrated ↔
      Leads codec.codecUpgrades (checkUpgradedComponentState format) codec.codecVersion
        maxUpgradeChain recorded bytes migrated := by
  rw [upgradeCodecChain, mapError_ok, upgradeChain_ok_iff]

namespace ComponentStateEnvelope

/-- The declared upgrades of both axes lead the payload of an envelope to the versions
of a codec. -/
def Migrates (format : StateFormat Checksum) (envelope : ComponentStateEnvelope Checksum)
    (codec : ComponentStateCodec T) (bytes migrated : List UInt8) : Prop :=
  ∃ middle,
    Leads codec.upgrades (checkUpgraded format) codec.currentVersion maxUpgradeChain
      envelope.schemaVersion bytes middle ∧
    Leads codec.codecUpgrades (checkUpgradedComponentState format) codec.codecVersion
      maxUpgradeChain envelope.codecVersion middle migrated

/-- An envelope a codec can read, perhaps behind upgrades. -/
structure Compatible (envelope : ComponentStateEnvelope Checksum) (codec : ComponentStateCodec T) :
    Prop where
  codecId : envelope.codecId = codec.codecId
  schemaId : envelope.schemaId = codec.schemaId
  schemaVersion : envelope.schemaVersion ≤ codec.currentVersion
  codecVersion : envelope.codecVersion ≤ codec.codecVersion

/-- An envelope that carries the current versions of a codec. -/
structure Current (envelope : ComponentStateEnvelope Checksum) (codec : ComponentStateCodec T) :
    Prop where
  schemaVersion : envelope.schemaVersion = codec.currentVersion
  codecVersion : envelope.codecVersion = codec.codecVersion

variable {codec : ComponentStateCodec T} {envelope envelope' : ComponentStateEnvelope Checksum}
  {bytes migrated : List UInt8}

private theorem compatible_ok {answer : Unit} :
    envelope.compatible codec = .ok answer ↔ Compatible envelope codec := by
  simp only [compatible, bind_ok, refuse_ok, not_not, not_lt]
  constructor
  · rintro ⟨_, codecId, _, schemaId, _, schemaVersion, codecVersion⟩
    exact ⟨codecId, schemaId, schemaVersion, codecVersion⟩
  · intro fits
    exact ⟨(), fits.codecId, (), fits.schemaId, (), fits.schemaVersion, fits.codecVersion⟩

theorem migrate_ok :
    envelope.migrate format codec bytes = .ok migrated ↔
      Migrates format envelope codec bytes migrated := by
  simp only [migrate, bind_ok, mapError_ok, upgradeSchemaChain_ok, upgradeCodecChain_ok, Migrates]

/-- Current versions leave nothing to migrate. -/
theorem migrate_current (current : Current envelope codec) :
    envelope.migrate format codec bytes = .ok bytes := by
  rw [migrate_ok]
  exact ⟨bytes, .done current.schemaVersion.ge, .done current.codecVersion.ge⟩

/-- Migrated bytes are the recorded ones, or the last upgrade's, which were checked. -/
theorem Migrates.fits (migrates : Migrates format envelope codec bytes migrated) :
    migrated = bytes ∨ Fits format .ceilings migrated := by
  obtain ⟨middle, schemas, codecs⟩ := migrates
  rcases codecs.accepted with ⟨rfl, _⟩ | ⟨accepted, _⟩
  · rcases schemas.accepted with ⟨rfl, _⟩ | ⟨accepted, _⟩
    · exact .inl rfl
    · exact .inr (checkUpgraded_ok accepted)
  · exact .inr (checkUpgradedComponentState_ok accepted)

/-- The envelope that migrated bytes are handed on in. -/
def reopened (format : StateFormat Checksum) (envelope : ComponentStateEnvelope Checksum)
    (codec : ComponentStateCodec T) (bytes migrated : List UInt8) :
    ComponentStateEnvelope Checksum :=
  if migrated = bytes then envelope
  else stamped format envelope.streamNamespace envelope.schemaId codec.currentVersion
    envelope.codecId codec.codecVersion .current (.inline migrated)

private theorem validatedForOpen_inline (inline : envelope.payload = .inline bytes) :
    validatedForOpen format envelope codec = .ok envelope' ↔
      Compatible envelope codec ∧ ∃ migrated, Migrates format envelope codec bytes migrated ∧
        reopened format envelope codec bytes migrated = envelope' := by
  simp only [validatedForOpen, inline, bind_ok, pure_ok, compatible_ok, migrate_ok, reopened]
  constructor
  · rintro ⟨_, compatible, migrated⟩
    exact ⟨compatible, migrated⟩
  · rintro ⟨compatible, migrated⟩
    exact ⟨(), compatible, migrated⟩

private theorem validatedForOpen_external {reference : ExternalStateReference}
    (outside : envelope.payload = .external reference) :
    validatedForOpen format envelope codec = .ok envelope' ↔
      Compatible envelope codec ∧ Current envelope codec ∧ envelope = envelope' := by
  simp only [validatedForOpen, outside, bind_ok, pure_ok, compatible_ok, refuse_ok, not_lt]
  constructor
  · rintro ⟨_, compatible, _, schemas, _, codecs, same⟩
    exact ⟨compatible, ⟨le_antisymm compatible.schemaVersion schemas,
      le_antisymm compatible.codecVersion codecs⟩, same⟩
  · rintro ⟨compatible, current, same⟩
    exact ⟨(), compatible, (), current.schemaVersion.ge, (), current.codecVersion.ge, same⟩

/-- An envelope that opens is the recorded one, or one the framework stamped anew with the
current versions. -/
private theorem validatedForOpen_cases
    (opened : validatedForOpen format envelope codec = .ok envelope') :
    envelope' = envelope ∨ Current envelope' codec ∧ Compatible envelope' codec ∧
      ∃ migrated, envelope'.payload = .inline migrated ∧ Sealed format .ceilings envelope' := by
  cases payload : envelope.payload with
  | external reference => exact .inl ((validatedForOpen_external payload).mp opened).2.2.symm
  | inline bytes =>
    obtain ⟨compatible, migrated, migrates, rfl⟩ := (validatedForOpen_inline payload).mp opened
    by_cases same : migrated = bytes
    · exact .inl (if_pos same)
    · right
      rw [reopened, if_neg same]
      refine ⟨⟨rfl, rfl⟩, ⟨compatible.codecId, compatible.schemaId, le_refl _, le_refl _⟩,
        migrated, rfl, ?_⟩
      exact stamped_inline (migrates.fits.resolve_left same)

theorem StateLimits.ceilings_atLeast (limits : StateLimits) :
    StateLimits.ceilings.AtLeast limits :=
  ⟨limits.bytesWithin, limits.depthWithin⟩

private theorem validatedForOpen_sealed {limits : StateLimits}
    (holds : Sealed format limits envelope)
    (opened : validatedForOpen format envelope codec = .ok envelope') :
    Sealed format .ceilings envelope' := by
  rcases validatedForOpen_cases opened with rfl | ⟨_, _, _, _, holds'⟩
  · exact holds.widen (StateLimits.ceilings_atLeast limits)
  · exact holds'

/-- Two envelopes with one checksum hold the same fields. -/
theorem Sealed.fields {limits limits' : StateLimits} (injective : Function.Injective format.sha256)
    (holds : Sealed format limits envelope) (holds' : Sealed format limits' envelope')
    (same : envelope'.checksum = envelope.checksum) :
    envelope'.streamNamespace = envelope.streamNamespace ∧
      envelope'.schemaId = envelope.schemaId ∧
      envelope'.schemaVersion = envelope.schemaVersion ∧ envelope'.codecId = envelope.codecId ∧
      envelope'.codecVersion = envelope.codecVersion ∧ envelope'.payload = envelope.payload := by
  rw [holds.checksum, holds'.checksum] at same
  obtain ⟨namespaces, schemas, versions, codecs, codecVersions, markers⟩ :=
    canonicalChecksumInput_inj (injective same)
  exact ⟨namespaces, schemas, versions, codecs, codecVersions, marker_injective markers⟩

section Built

variable [DecidableEq Checksum]

/-- The envelopes there are, each with limits it was built under. -/
inductive Built (format : StateFormat Checksum) :
    StateLimits → ComponentStateEnvelope Checksum → Prop
  | encode {T : Type} {codec : ComponentStateCodec T} {value : T} {limits : StateLimits}
      {streamNamespace : ComponentStreamIdentity} {envelope : ComponentStateEnvelope Checksum}
      (encoded : encode format streamNamespace value codec limits = .ok envelope) :
      Built format limits envelope
  | transformed {source envelope : ComponentStateEnvelope Checksum} {before limits : StateLimits}
      {schemaId : StateSchemaId} {schemaVersion : StateSchemaVersion} {payload : List UInt8}
      (built : Built format before source)
      (transformed : fromTransformedInline format source schemaId schemaVersion payload limits =
        .ok envelope) :
      Built format limits envelope
  | external (limits : StateLimits) (streamNamespace : ComponentStreamIdentity)
      (schemaId : StateSchemaId) (schemaVersion : StateSchemaVersion) (codecId : CodecId)
      (codecVersion : CodecVersion) (reference : ExternalStateReference) :
      Built format limits (external format streamNamespace schemaId schemaVersion codecId
        codecVersion reference)
  | durable {columns : DurableColumns Checksum} {limits : StateLimits}
      {envelope : ComponentStateEnvelope Checksum}
      (read : fromDurable format columns limits = .ok envelope) : Built format limits envelope
  | opened {T : Type} {codec : ComponentStateCodec T} {limits : StateLimits}
      {envelope envelope' : ComponentStateEnvelope Checksum} (built : Built format limits envelope)
      (opened : validatedForOpen format envelope codec = .ok envelope') :
      Built format .ceilings envelope'

/-- Every envelope is sealed under the limits it was built with. -/
theorem Built.holds {limits : StateLimits} (built : Built format limits envelope) :
    Sealed format limits envelope := by
  induction built with
  | encode encoded => exact encode_sealed encoded
  | transformed _ transformed _ => exact fromTransformedInline_sealed transformed
  | external => exact external_sealed
  | durable read => exact (fromDurable_ok.mp read).1
  | opened _ opened ih => exact validatedForOpen_sealed ih opened

/-- An envelope is read back from its own columns, and no other content of the columns is
accepted under its checksum. -/
theorem envelope_detects_every_change {limits : StateLimits}
    (injective : Function.Injective format.sha256) (built : Built format limits envelope) :
    (∀ wide : StateLimits, wide.AtLeast limits →
      fromDurable format envelope.columns wide = .ok envelope) ∧
    (∀ (columns : DurableColumns Checksum) (wide : StateLimits),
      columns.checksum = envelope.checksum →
      (columns.streamNamespace ≠ envelope.columns.streamNamespace ∨
        columns.schemaId ≠ envelope.columns.schemaId ∨
        columns.schemaVersion ≠ envelope.columns.schemaVersion ∨
        columns.codecId ≠ envelope.columns.codecId ∨
        columns.codecVersion ≠ envelope.columns.codecVersion ∨
        columns.payload ≠ envelope.columns.payload) →
      ∃ error, fromDurable format columns wide = .error error) ∧
    (∀ (left right : ComponentStateEnvelope Checksum),
      canonicalChecksumInput left.streamNamespace left.schemaId left.schemaVersion left.codecId
          left.codecVersion left.payload.marker =
        canonicalChecksumInput right.streamNamespace right.schemaId right.schemaVersion
          right.codecId right.codecVersion right.payload.marker →
      left.streamNamespace = right.streamNamespace ∧ left.schemaId = right.schemaId ∧
        left.schemaVersion = right.schemaVersion ∧ left.codecId = right.codecId ∧
        left.codecVersion = right.codecVersion ∧ left.payload = right.payload) := by
  refine ⟨?_, ?_, ?_⟩
  · intro wide within
    exact fromDurable_ok.mpr ⟨built.holds.widen within, rfl⟩
  · intro columns wide same differs
    cases read : fromDurable format columns wide with
    | error error => exact ⟨error, rfl⟩
    | ok envelope' =>
      exfalso
      obtain ⟨holds', rfl⟩ := fromDurable_ok.mp read
      obtain ⟨namespaces, schemas, versions, codecs, codecVersions, payloads⟩ :=
        built.holds.fields injective holds' same
      simp [ComponentStateEnvelope.columns, namespaces, schemas, versions, codecs, codecVersions,
        payloads] at differs
  · intro left right same
    obtain ⟨namespaces, schemas, versions, codecs, codecVersions, markers⟩ :=
      canonicalChecksumInput_inj same
    exact ⟨namespaces, schemas, versions, codecs, codecVersions, marker_injective markers⟩

end Built

section Sample

/-- The empty object. -/
def emptyObject : List UInt8 := [123, 125]

/-- Reads the empty object only, and keeps the bytes under a checksum themselves. -/
def plainFormat : StateFormat (List UInt8) where
  fromSlice bytes := if bytes = emptyObject then some (.object []) else none
  sha256 bytes := bytes

def versionOne : Positive := 1

def versionTwo : Positive := 2

/-- A codec at the first version of its schema. -/
def firstCodec : ComponentStateCodec Unit where
  schemaId := ⟨"orders", Eq.refl true⟩
  currentVersion := versionOne
  upgrades := []
  codecId := ⟨"json", Eq.refl true⟩
  codecVersion := versionOne
  codecUpgrades := []
  encode _ := .ok emptyObject
  decode _ := .ok ()

/-- The same codec one schema version later; nothing recorded before has to change. -/
def secondCodec : ComponentStateCodec Unit :=
  { firstCodec with
    currentVersion := versionTwo
    upgrades := [⟨versionOne, versionTwo, .ok, by decide⟩] }

/-- State that the first codec recorded. -/
def firstState : ComponentStateEnvelope (List UInt8) :=
  stamped plainFormat ⟨"cursor", Eq.refl true⟩ firstCodec.schemaId versionOne firstCodec.codecId
    versionOne .current (.inline emptyObject)

private theorem encode_firstState :
    encode plainFormat ⟨"cursor", by decide⟩ () firstCodec .ceilings = .ok firstState := by
  rfl

/-- A stored envelope under another stream namespace is refused. -/
theorem moved_envelope_refused :
    ∃ error, fromDurable plainFormat
      { firstState.columns with streamNamespace := ⟨"offset", by decide⟩ } .ceilings =
        .error error :=
  (envelope_detects_every_change (fun _ _ same => same) (.encode encode_firstState)).2.1 _ _ rfl
    (.inl (by decide))

end Sample

section Opening

/-- Some version of a readable envelope lags behind the codec, and the declared upgrades lead
its payload back to the same bytes. -/
structure LagsUnchanged (format : StateFormat Checksum)
    (envelope : ComponentStateEnvelope Checksum) (codec : ComponentStateCodec T) : Prop where
  compatible : Compatible envelope codec
  lags : ¬ Current envelope codec
  unchanged : ∃ bytes, envelope.payload = .inline bytes ∧
    Migrates format envelope codec bytes bytes

theorem Compatible.of_current (current : Current envelope codec)
    (codecId : envelope.codecId = codec.codecId) (schemaId : envelope.schemaId = codec.schemaId) :
    Compatible envelope codec :=
  ⟨codecId, schemaId, current.schemaVersion.le, current.codecVersion.le⟩

/-- A current envelope opens as it is. -/
private theorem validatedForOpen_current (current : Current envelope codec)
    (compatible : Compatible envelope codec) :
    validatedForOpen format envelope codec = .ok envelope := by
  cases payload : envelope.payload with
  | external reference =>
    exact (validatedForOpen_external payload).mpr ⟨compatible, current, rfl⟩
  | inline bytes =>
    exact (validatedForOpen_inline payload).mpr ⟨compatible, bytes,
      migrate_ok.mp (migrate_current current), if_pos rfl⟩

theorem decode_inline (payload : envelope.payload = .inline bytes)
    (compatible : Compatible envelope codec)
    (migrates : Migrates format envelope codec bytes migrated) :
    envelope.decode format codec = (codec.decode migrated).mapError .codec := by
  have accepted : envelope.compatible codec = .ok () := compatible_ok.mpr compatible
  simp only [decode, payload]
  rw [accepted, migrate_ok.mpr migrates]
  rfl

/-- What opens is current, unless it lags and no upgrade changed it. -/
private theorem validatedForOpen_current_of (moves : ¬ LagsUnchanged format envelope codec)
    (opened : validatedForOpen format envelope codec = .ok envelope') :
    Current envelope' codec ∧ Compatible envelope' codec := by
  cases payload : envelope.payload with
  | external reference =>
    obtain ⟨compatible, current, rfl⟩ := (validatedForOpen_external payload).mp opened
    exact ⟨current, compatible⟩
  | inline bytes =>
    rcases validatedForOpen_cases opened with rfl | ⟨current, compatible, _⟩
    · obtain ⟨compatible, migrated, migrates, same⟩ := (validatedForOpen_inline payload).mp opened
      refine ⟨?_, compatible⟩
      by_contra lags
      -- An envelope that was stamped anew would be current.
      by_cases unchanged : migrated = bytes
      · subst unchanged
        exact moves ⟨compatible, lags, migrated, payload, migrates⟩
      · rw [reopened, if_neg unchanged] at same
        apply lags
        rw [← same]
        exact ⟨rfl, rfl⟩
    · exact ⟨current, compatible⟩

/-- What opens decodes as the recorded state does. -/
private theorem decode_of_opened (payload : envelope.payload = .inline bytes)
    (opened : validatedForOpen format envelope codec = .ok envelope') :
    envelope'.decode format codec = envelope.decode format codec := by
  obtain ⟨compatible, migrated, migrates, rfl⟩ := (validatedForOpen_inline payload).mp opened
  by_cases same : migrated = bytes
  · rw [reopened, if_pos same]
  · rw [decode_inline payload compatible migrates, reopened, if_neg same]
    have current : Current (stamped format envelope.streamNamespace envelope.schemaId
      codec.currentVersion envelope.codecId codec.codecVersion .current (.inline migrated))
        codec := ⟨rfl, rfl⟩
    exact decode_inline rfl (.of_current current compatible.codecId compatible.schemaId)
      (migrate_ok.mp (migrate_current current))

/-- A failure to open is a failure to decode. -/
private theorem decode_of_failed {error : ComponentStateError}
    (payload : envelope.payload = .inline bytes)
    (failed : validatedForOpen format envelope codec = .error error) :
    envelope.decode format codec = .error error := by
  simp only [validatedForOpen, decode, payload] at failed ⊢
  cases accepted : envelope.compatible codec with
  | error refusal =>
    rw [accepted] at failed
    cases failed
    rfl
  | ok =>
    cases migrated : envelope.migrate format codec bytes with
    | error refusal =>
      rw [accepted, migrated] at failed
      cases failed
      rfl
    | ok result =>
      rw [accepted, migrated] at failed
      cases failed

variable [DecidableEq Checksum]

/-- Opening agrees with decoding: what opens carries the current versions, opens as it is,
is read back from its columns, and decodes as the recorded state does; what does not open
does not decode. -/
structure OpensAsDecoded (format : StateFormat Checksum)
    (envelope : ComponentStateEnvelope Checksum) (codec : ComponentStateCodec T) : Prop where
  opened : ∀ envelope', validatedForOpen format envelope codec = .ok envelope' →
    Current envelope' codec ∧ validatedForOpen format envelope' codec = .ok envelope' ∧
      (∀ limits : StateLimits, limits.AtLeast .ceilings →
        fromDurable format envelope'.columns limits = .ok envelope') ∧
      (∀ bytes, envelope.payload = .inline bytes →
        envelope'.decode format codec = envelope.decode format codec)
  failed : ∀ bytes error, envelope.payload = .inline bytes →
    validatedForOpen format envelope codec = .error error →
      ∃ error', envelope.decode format codec = .error error'

private theorem not_current_of_lagsUnchanged (opensAs : OpensAsDecoded format envelope codec) :
    ¬ LagsUnchanged format envelope codec := by
  rintro ⟨compatible, lags, bytes, payload, migrates⟩
  have opened : validatedForOpen format envelope codec = .ok envelope :=
    (validatedForOpen_inline payload).mpr ⟨compatible, bytes, migrates, if_pos rfl⟩
  exact lags (opensAs.opened envelope opened).1

/-- Opening agrees with decoding except where a lagging envelope is left as it is by its
upgrades: there the old versions stay. -/
theorem opening_agrees_with_decoding_iff {limits : StateLimits} (codec : ComponentStateCodec T)
    (built : Built format limits envelope) :
    OpensAsDecoded format envelope codec ↔ ¬ LagsUnchanged format envelope codec := by
  constructor
  · exact not_current_of_lagsUnchanged
  · intro moves
    constructor
    · intro envelope' opened
      obtain ⟨current, compatible⟩ := validatedForOpen_current_of moves opened
      have holds := validatedForOpen_sealed built.holds opened
      refine ⟨current, validatedForOpen_current current compatible, ?_, ?_⟩
      · intro wide within
        exact fromDurable_ok.mpr ⟨holds.widen within, rfl⟩
      · intro bytes payload
        exact decode_of_opened payload opened
    · intro bytes error payload failed
      exact ⟨error, decode_of_failed payload failed⟩

theorem firstState_opens_as_decoded : OpensAsDecoded plainFormat firstState firstCodec := by
  apply (opening_agrees_with_decoding_iff firstCodec (.encode encode_firstState)).mpr
  intro stale
  exact stale.lags ⟨rfl, rfl⟩

/-- Under the second codec the first state opens as it is, at the first schema version. -/
theorem firstState_stays_behind :
    encode plainFormat ⟨"cursor", by decide⟩ () firstCodec .ceilings = .ok firstState ∧
      validatedForOpen plainFormat firstState secondCodec = .ok firstState ∧
      firstState.schemaVersion ≠ secondCodec.currentVersion ∧
      ¬ OpensAsDecoded plainFormat firstState secondCodec := by
  have opened : validatedForOpen plainFormat firstState secondCodec = .ok firstState := by rfl
  have behind : firstState.schemaVersion ≠ secondCodec.currentVersion := by decide
  refine ⟨encode_firstState, opened, behind, ?_⟩
  intro opensAs
  exact behind (opensAs.opened firstState opened).1.schemaVersion

end Opening

end ComponentStateEnvelope

end OxideBatch.Core
