import OxideBatch.Chunk.FaultFormat
import OxideBatch.Core.ComponentChecksum

/-! What the incremental updates of a fault-state envelope leave, against what its
constructor, its encoder and its decoder accept. -/

namespace OxideBatch.Chunk

open OxideBatch.Core OxideBatch.Lib Program

section Hex

/-- The byte of a hexadecimal digit. -/
def digitByte (digit : Nat) : UInt8 := UInt8.ofNat (Nat.digitChar digit).toNat

private theorem digit_bytes : ∀ digit ∈ List.range 16,
    String.utf8EncodeChar (Nat.digitChar digit) = [digitByte digit] ∧
      toDigit (digitByte digit) = some digit := by
  decide

private theorem toDigit_digitByte {digit : Nat} (small : digit < 16) :
    toDigit (digitByte digit) = some digit :=
  (digit_bytes digit (List.mem_range.mpr small)).2

private theorem hexPair_bytes (byte : UInt8) :
    (hexPair byte).flatMap String.utf8EncodeChar =
      [digitByte (byte.toNat / 16), digitByte (byte.toNat % 16)] := by
  have bound := byte.toNat_lt
  have high : byte.toNat / 16 ∈ List.range 16 := List.mem_range.mpr (by omega)
  have low : byte.toNat % 16 ∈ List.range 16 := List.mem_range.mpr (by omega)
  simp [hexPair, (digit_bytes _ high).1, (digit_bytes _ low).1]

private theorem textBytes_hex (bytes : Digest) :
    textBytes (hex bytes) =
      bytes.flatMap fun byte => [digitByte (byte.toNat / 16), digitByte (byte.toNat % 16)] := by
  rw [textBytes, hex, String.toList_ofList, List.flatMap_assoc]
  exact List.flatMap_congr fun byte _ => hexPair_bytes byte

private theorem length_textBytes_hex (bytes : Digest) :
    (textBytes (hex bytes)).length = 2 * bytes.length := by
  rw [textBytes_hex]
  induction bytes with
  | nil => rfl
  | cons byte rest ih =>
    rw [List.flatMap_cons, List.length_append, ih, List.length_cons]
    simp only [List.length_cons, List.length_nil]
    omega

private theorem unhexPairs_digits (bytes : Digest) :
    unhexPairs (bytes.flatMap fun byte =>
      [digitByte (byte.toNat / 16), digitByte (byte.toNat % 16)]) = some bytes := by
  induction bytes with
  | nil => rfl
  | cons byte rest ih =>
    have bound := byte.toNat_lt
    have whole : byte.toNat / 16 * 16 + byte.toNat % 16 = byte.toNat := by omega
    simp only [List.flatMap_cons, List.cons_append, List.nil_append, unhexPairs, ih,
      toDigit_digitByte (show byte.toNat / 16 < 16 by omega),
      toDigit_digitByte (show byte.toNat % 16 < 16 by omega), Option.bind_eq_bind,
      Option.bind_some, Option.pure_def, whole, UInt8.ofNat_toNat]

private theorem unhex_hex {bytes : Digest} (whole : bytes.length = 32) : unhex
    (hex bytes) = some bytes := by
  rw [unhex, if_neg (by rw [length_textBytes_hex, whole]; decide), textBytes_hex,
    unhexPairs_digits]

private theorem length_of_unhexPairs {raw : List UInt8} {bytes : Digest}
    (read : unhexPairs raw = some bytes) : bytes.length = raw.length / 2 := by
  induction raw using unhexPairs.induct generalizing bytes with
  | case1 high low rest ih =>
    simp only [unhexPairs, Option.bind_eq_bind, Option.bind_eq_some_iff, Option.pure_def,
      Option.some.injEq] at read
    obtain ⟨_, _, _, _, tail, later, rfl⟩ := read
    rw [List.length_cons, ih later, List.length_cons, List.length_cons]
    omega
  | case2 raw short =>
    cases raw with
    | nil =>
      cases read
      rfl
    | cons first rest =>
      cases rest with
      | nil =>
        cases read
        simp
      | cons second rest => exact absurd rfl (short first second rest)

private theorem length_of_unhex {text : String} {bytes : Digest} (read : unhex text = some bytes) :
    bytes.length = 32 := by
  unfold unhex at read
  split at read
  · cases read
  · rename_i whole
    rw [length_of_unhexPairs read, not_not.mp whole]

end Hex

section Checks

private theorem reject_ok {condition : Prop} [Decidable condition] {error : FaultStateFormatError}
    {answer : Unit} : reject condition error = .ok answer ↔ ¬ condition := by
  by_cases holds : condition
  · simp [reject, holds]
  · simp [reject, holds]

private theorem elim_ok {α : Type} {value : Option α} {error : FaultStateFormatError} {result : α} :
    value.elim (.error error) .ok = (.ok result : Except FaultStateFormatError α) ↔
      value = some result := by
  cases value with
  | none => simp
  | some value => simp

end Checks

namespace FaultStateEntry

/-- What the types of the source promise of an entry: a key of 32 bytes and an ordinal
that is representable. -/
structure Valid (entry : FaultStateEntry) : Prop where
  key : entry.key.length = 32
  ordinal : entry.ordinal ≤ maxRetry

private theorem fromDurableCode_durableCode (category : FailureCategory) :
    FailureCategory.fromDurableCode category.durableCode = some category := by
  cases category <;> rfl

private theorem fromDurableName_asStr (phase : FaultPhase) :
    FaultPhase.fromDurableName phase.asStr = some phase := by
  cases phase <;> rfl

private theorem retryOrdinal_valid {ordinal : Nat} (small : ordinal ≤ maxRetry) :
    ((Json.integer ordinal).asU64).bind retryOrdinal = some ordinal := by
  have bounded := small
  unfold maxRetry at bounded
  rw [Json.asU64_natCast (by omega), Option.bind_some, retryOrdinal, if_pos ⟨by omega, small⟩]

theorem fromJson_toJson {entry : FaultStateEntry} (valid : entry.Valid) :
    fromJson entry.toJson = .ok entry := by
  simp only [fromJson, bind_ok, elim_ok, pure_ok]
  refine ⟨_, rfl, entry.key, ?_, entry.phase, ?_, entry.category, ?_, entry.ordinal, ?_,
    entry.revision, ?_, rfl⟩
  · simpa [Json.asStr] using unhex_hex valid.key
  · simpa [Json.asStr] using fromDurableName_asStr entry.phase
  · simpa [Json.asStr] using fromDurableCode_durableCode entry.category
  · have found : Json.member? "ordinal"
        [("category", .string entry.category.durableCode), ("key", .string (hex entry.key)),
          ("ordinal", .integer entry.ordinal), ("phase", .string entry.phase.asStr),
          ("revision", .string entry.revision.value)] = some (.integer entry.ordinal) := by
      simp
    rw [found, Option.bind_some]
    exact retryOrdinal_valid valid.ordinal
  · have revision : Token.new 128 entry.revision.value = some entry.revision := Token.new_ok.mpr rfl
    simpa [Json.asStr] using revision

private theorem valid_of_fromJson {value : Json} {entry : FaultStateEntry}
    (read : fromJson value = .ok entry) : entry.Valid := by
  simp only [fromJson, bind_ok, elim_ok, pure_ok, Option.bind_eq_some_iff] at read
  obtain ⟨object, _, key, ⟨_, _, unhexed⟩, phase, _, category, _, ordinal,
    ⟨_, _, representable⟩, revision, _, rfl⟩ := read
  refine ⟨length_of_unhex unhexed, ?_⟩
  unfold retryOrdinal at representable
  split at representable
  · rename_i within
    cases representable
    exact within.2
  · cases representable

end FaultStateEntry

namespace FaultStateEnvelope

/-- What the types of the source promise of an envelope. -/
structure Valid (envelope : FaultStateEnvelope) : Prop where
  digest : envelope.checkpointDigest.length = 32
  entries : ∀ entry ∈ envelope.entries.entries, entry.Valid

/-- What `FaultStateEnvelope::new` establishes. -/
structure Formed (envelope : FaultStateEnvelope) : Prop where
  sorted : envelope.entries.entries.Pairwise fun left right => left.key < right.key
  few : envelope.entries.entries.length ≤ maxEntries
  digest : envelope.checkpointDigest = zeroDigest ↔ envelope.entries.entries = []

theorem ext {left right : FaultStateEnvelope} (digests : left.checkpointDigest = right.checkpointDigest)
    (entries : left.entries.entries = right.entries.entries) : left = right := by
  obtain ⟨_, _, _⟩ := left
  obtain ⟨_, _, _⟩ := right
  cases digests
  cases entries
  rfl

private theorem sortByKey_of_ascending {entries : List FaultStateEntry}
    (ascending : entries.Pairwise fun left right => left.key < right.key) :
    sortByKey entries = entries := by
  apply List.mergeSort_of_pairwise
  exact ascending.imp fun below => decide_eq_true (le_of_lt below)

/-- The constructor on entries that stand in order. -/
private theorem new_ascending {entries : List FaultStateEntry} {digest : Digest}
    (ascending : entries.Pairwise fun left right => left.key < right.key)
    (few : entries.length ≤ maxEntries) :
    new digest entries =
      if digest = zeroDigest ↔ entries = [] then .ok ⟨digest, entries, ascending⟩
      else .error .checkpointMismatch := by
  have same := sortByKey_of_ascending ascending
  have distinct : (sortByKey entries).IsChain fun left right => left.key ≠ right.key := by
    rw [same]
    exact (ascending.imp fun below => ne_of_lt below).isChain
  have built : ∀ proof, (⟨digest, sortByKey entries, proof⟩ : FaultStateEnvelope) =
      ⟨digest, entries, ascending⟩ := fun _ => ext rfl same
  rw [new, if_neg (Nat.not_lt.mpr few), dif_pos distinct]
  by_cases vacant : entries = []
  · by_cases zero : digest = zeroDigest
    · rw [if_pos vacant, if_neg (not_not.mpr zero), if_pos (iff_of_true zero vacant), built]
    · simp [vacant, zero]
  · by_cases zero : digest = zeroDigest
    · simp [vacant, zero]
    · simp [vacant, zero, built]

/-- The constructor on any entries it accepts. -/
theorem new_ok {entries : List FaultStateEntry} {digest : Digest} {envelope : FaultStateEnvelope}
    (accepts : new digest entries = .ok envelope)
    (ascending : entries.Pairwise fun left right => left.key < right.key) :
    envelope.checkpointDigest = digest ∧ envelope.entries.entries = entries ∧ envelope.Formed := by
  have few : entries.length ≤ maxEntries := by
    by_contra many
    rw [new, if_pos (Nat.lt_of_not_le many)] at accepts
    cases accepts
  rw [new_ascending ascending few] at accepts
  split at accepts
  · rename_i digest
    cases accepts
    exact ⟨rfl, rfl, ascending, few, digest⟩
  · cases accepts

private theorem mapM_fromJson {entries : List FaultStateEntry}
    (valid : ∀ entry ∈ entries, entry.Valid) :
    (entries.map FaultStateEntry.toJson).mapM FaultStateEntry.fromJson = .ok entries := by
  induction entries with
  | nil => rfl
  | cons first rest ih =>
    rw [List.map_cons, List.mapM_cons, FaultStateEntry.fromJson_toJson (valid first List.mem_cons_self)]
    have later := ih fun entry member => valid entry (List.mem_cons_of_mem _ member)
    simp only [bind_ok, pure_ok, List.cons.injEq]
    exact ⟨first, rfl, rest, later, rfl, rfl⟩

/-- The members an envelope is written under. -/
def members (envelope : FaultStateEnvelope) : List (String × Json) :=
  [("checkpoint", .string (hex envelope.checkpointDigest)),
    ("entries", .array (envelope.entries.entries.map FaultStateEntry.toJson))]

/-- The decoder undoes the encoder where the constructor accepts the envelope. -/
private theorem decode_members {envelope : FaultStateEnvelope} (valid : envelope.Valid)
    (few : envelope.entries.entries.length ≤ maxEntries) :
    decode envelope.members =
      if envelope.checkpointDigest = zeroDigest ↔ envelope.entries.entries = [] then .ok envelope
      else .error .checkpointMismatch := by
  have checkpoint : ((Json.member? "checkpoint" envelope.members).bind Json.asStr).bind unhex =
      some envelope.checkpointDigest := by
    simpa [members, Json.asStr] using unhex_hex valid.digest
  have entries : (Json.member? "entries" envelope.members).bind Json.asArray =
      some (envelope.entries.entries.map FaultStateEntry.toJson) := by
    simp [members, Json.asArray]
  have sorted : envelope.entries.entries.IsChain fun left right => left.key < right.key :=
    envelope.entries.ascending.isChain
  rw [← new_ascending envelope.entries.ascending few, decode, checkpoint, entries]
  simp [reject, List.length_map, Nat.not_lt.mpr few, mapM_fromJson valid.entries, bind, Except.bind,
    sorted]

private theorem decode_ok {object : List (String × Json)} {envelope : FaultStateEnvelope}
    (accepts : decode object = .ok envelope) : envelope.Valid ∧ envelope.Formed := by
  unfold decode at accepts
  simp only [bind_ok, elim_ok, reject_ok, not_not, Option.bind_eq_some_iff] at accepts
  obtain ⟨digest, ⟨_, _, read⟩, raw, _, _, _, entries, mapped, _, sorted, accepts⟩ := accepts
  obtain ⟨digests, same, formed⟩ := new_ok accepts (List.isChain_iff_pairwise.mp sorted)
  refine ⟨⟨?_, fun entry member => ?_⟩, formed⟩
  · rw [digests]
    exact length_of_unhex read
  · rw [same] at member
    obtain ⟨value, _, read⟩ := mapM_member (mapM_ok mapped) member
    exact FaultStateEntry.valid_of_fromJson read

section Stored

variable {Checksum : Type} [DecidableEq Checksum] {serde : StateFormat Checksum}
  {envelope : FaultStateEnvelope}

/-- `serde_json` reads the document of an envelope back. -/
def ReadBack (serde : StateFormat Checksum) (envelope : FaultStateEnvelope) : Prop :=
  serde.fromSlice envelope.toJson.toBytes = some envelope.toJson

private theorem toCanonicalJson_fits (fits : envelope.toJson.toBytes.length ≤ maxBytes) :
    envelope.toCanonicalJson = .ok envelope.toJson.toBytes :=
  if_neg (Nat.not_lt.mpr fits)

/-- The decoder on the bytes and the checksum of an envelope. -/
private theorem fromCanonicalJson_own (reads : ReadBack serde envelope) (valid : envelope.Valid)
    (few : envelope.entries.entries.length ≤ maxEntries)
    (fits : envelope.toJson.toBytes.length ≤ maxBytes) :
    fromCanonicalJson serde formatVersion format schemaVersion envelope.toJson.toBytes
        (serde.sha256 envelope.toJson.toBytes) =
      if envelope.checkpointDigest = zeroDigest ↔ envelope.entries.entries = [] then .ok envelope
      else .error .checkpointMismatch := by
  have object : envelope.toJson.asObject = some envelope.members := rfl
  have decoded := decode_members valid few
  unfold fromCanonicalJson
  rw [reads]
  simp only [reject, ne_eq, not_true, or_self, if_false, Nat.not_lt.mpr fits, Option.elim_some,
    bind, Except.bind, object, decoded]
  by_cases digest : envelope.checkpointDigest = zeroDigest ↔ envelope.entries.entries = []
  · simp [if_pos digest, checksum, toCanonicalJson_fits fits, Except.map, pure, Except.pure]
  · simp [if_neg digest]

/-- What the decoder accepts is well formed, and the stored checksum is that of its
canonical bytes. -/
private theorem fromCanonicalJson_ok {storedVersion storedSchema : Nat} {schema : String}
    {bytes : List UInt8} {stored : Checksum}
    (accepts : fromCanonicalJson serde storedVersion schema storedSchema bytes stored =
      .ok envelope) :
    envelope.Valid ∧ envelope.Formed ∧ envelope.toJson.toBytes.length ≤ maxBytes ∧
      stored = serde.sha256 envelope.toJson.toBytes := by
  unfold fromCanonicalJson at accepts
  simp only [bind_ok, elim_ok, reject_ok, not_not, pure_ok] at accepts
  obtain ⟨_, _, _, _, _, _, value, _, object, _, decoded, accepts, covered, sum, _, same, rfl⟩ :=
    accepts
  obtain ⟨valid, formed⟩ := decode_ok accepts
  refine ⟨valid, formed, ?_⟩
  by_cases large : maxBytes < decoded.toJson.toBytes.length
  · simp [checksum, toCanonicalJson, large, Except.map] at sum
  · have fits := Nat.le_of_not_lt large
    rw [checksum, toCanonicalJson_fits fits] at sum
    cases sum
    exact ⟨fits, same.symm⟩

end Stored

end FaultStateEnvelope

section Size

/-- The bytes of a text. -/
def size (text : List Char) : Nat := (text.flatMap String.utf8EncodeChar).length

@[simp] theorem size_nil : size [] = 0 := rfl

private theorem size_append (left right : List Char) : size
    (left ++ right) = size left + size right := by
  simp [size]

private theorem size_cons (first : Char) (rest : List Char) :
    size (first :: rest) = first.utf8Size + size rest := by
  simp [size]

/-- Quotation marks and backslashes, each written behind a backslash. -/
def marks (text : String) : Nat :=
  text.toList.countP fun character => character = Json.mark || character = Json.slash

private theorem size_escape {character : Char} (printable : 32 ≤ character.toNat) :
    size (Json.escape character) =
      character.utf8Size + if character = Json.mark || character = Json.slash then 1 else 0 := by
  by_cases mark : character = Json.mark
  · rw [mark]
    decide
  · by_cases slash : character = Json.slash
    · rw [slash]
      decide
    · have unmarked : character.toNat ≠ 34 := fun code => mark (Char.toNat_inj.mp code)
      have unslashed : character.toNat ≠ 92 := fun code => slash (Char.toNat_inj.mp code)
      have plain : Json.escape character = [character] := by
        unfold Json.escape
        split
        all_goals first
          | omega
          | exact if_neg (by omega)
      simp [plain, mark, slash, size_cons]

private theorem size_quote {text : String}
    (printable : ∀ character ∈ text.toList, 32 ≤ character.toNat) :
    size (Json.quote text) = (textBytes text).length + marks text + 2 := by
  have escaped : size (text.toList.flatMap Json.escape) = size text.toList + marks text := by
    unfold marks
    generalize text.toList = characters at printable
    induction characters with
    | nil => rfl
    | cons first rest ih =>
      rw [List.flatMap_cons, size_append, size_escape (printable first List.mem_cons_self),
        ih fun character member => printable character (List.mem_cons_of_mem _ member),
        size_cons first rest, List.countP_cons]
      omega
  have mark : Json.mark.utf8Size = 1 := rfl
  rw [Json.quote, List.cons_append, size_cons, size_append, escaped, size_cons, size_nil, mark]
  change 1 + (size text.toList + marks text + 1) = size text.toList + marks text + 2
  omega

private theorem size_hex {bytes : Digest} (whole : bytes.length = 32) :
    size (Json.quote (hex bytes)) = 66 := by
  have digits : ∀ digit ∈ List.range 16, 32 ≤ (Nat.digitChar digit).toNat ∧
      (Nat.digitChar digit = Json.mark || Nat.digitChar digit = Json.slash) = false := by
    decide
  have plain : ∀ character ∈ (hex bytes).toList, 32 ≤ character.toNat ∧
      (character = Json.mark || character = Json.slash) = false := by
    intro character member
    rw [hex, String.toList_ofList, List.mem_flatMap] at member
    obtain ⟨byte, _, digit⟩ := member
    have bound := byte.toNat_lt
    simp only [hexPair, List.mem_cons, List.not_mem_nil, or_false] at digit
    rcases digit with rfl | rfl
    · exact digits _ (List.mem_range.mpr (by omega))
    · exact digits _ (List.mem_range.mpr (by omega))
  have unmarked : marks (hex bytes) = 0 := by
    rw [marks, List.countP_eq_zero]
    intro character member
    rw [(plain character member).2]
    exact Bool.false_ne_true
  rw [size_quote fun character member => (plain character member).1, length_textBytes_hex, whole,
    unmarked]

end Size

namespace FaultStateEntry

/-- The bytes an entry is spelled in: its category, key, ordinal, phase and revision, the
names of the five, and the punctuation. -/
def spelled (entry : FaultStateEntry) : Nat :=
  (textBytes entry.category.durableCode).length + 64 +
    (textBytes (toString entry.ordinal)).length + (textBytes entry.phase.asStr).length +
    (textBytes entry.revision.value).length + marks entry.revision.value + 60

private theorem size_durableCode (category : FailureCategory) :
    size (Json.quote category.durableCode) = (textBytes category.durableCode).length + 2 := by
  cases category <;> decide

private theorem size_asStr (phase : FaultPhase) :
    size (Json.quote phase.asStr) = (textBytes phase.asStr).length + 2 := by
  cases phase <;> decide

private theorem size_revision (revision : ClassifierRevision) :
    size (Json.quote revision.value) = (textBytes revision.value).length + marks revision.value + 2 := by
  apply size_quote
  intro character member
  have clear := revision.valid
  simp only [validText, Bool.and_eq_true, Bool.not_eq_true', List.any_eq_false] at clear
  have visible := clear.2 character member
  by_contra small
  exact visible (by simp [isControl]; omega)

private theorem size_toJson {entry : FaultStateEntry} (valid : entry.Valid) :
    size entry.toJson.render = entry.spelled := by
  have names : size (Json.quote "category") = 10 ∧ size (Json.quote "key") = 5 ∧
      size (Json.quote "ordinal") = 9 ∧ size (Json.quote "phase") = 7 ∧
      size (Json.quote "revision") = 10 := by
    decide
  have punctuation : (Char.ofNat 123).utf8Size = 1 ∧ (Char.ofNat 125).utf8Size = 1 ∧
      ':'.utf8Size = 1 ∧ ','.utf8Size = 1 := by
    decide
  have ordinal : size (toString (entry.ordinal : Int)).toList =
      (textBytes (toString entry.ordinal)).length := rfl
  simp only [toJson, Json.render, Json.renderMembers, List.cons_append, size_append, size_cons,
    size_nil, size_durableCode, size_hex valid.key, size_asStr, size_revision, ordinal, names,
    punctuation, spelled]
  omega

end FaultStateEntry

namespace FaultStateEnvelope

/-- The bytes the entries of an envelope are spelled in, each with a separator. -/
def spelled (envelope : FaultStateEnvelope) : Nat :=
  (envelope.entries.entries.map fun entry => entry.spelled + 1).sum

private theorem size_entries {entries : List FaultStateEntry}
    (valid : ∀ entry ∈ entries, entry.Valid)
    (nonempty : entries ≠ []) :
    size (Json.renderValues (entries.map FaultStateEntry.toJson)) + 1 =
      (entries.map fun entry => entry.spelled + 1).sum := by
  induction entries with
  | nil => exact absurd rfl nonempty
  | cons first rest ih =>
    have here := FaultStateEntry.size_toJson (valid first List.mem_cons_self)
    cases rest with
    | nil => simp [Json.renderValues, here]
    | cons second rest =>
      have later := ih (fun entry member => valid entry (List.mem_cons_of_mem _ member)) (by simp)
      have comma : ','.utf8Size = 1 := rfl
      rw [List.map_cons, List.map_cons, Json.renderValues, size_append, size_cons, comma, here,
        List.map_cons, List.sum_cons, ← later, List.map_cons]
      · omega
      · simp

/-- The ceiling of the canonical bytes, in terms of the entries. -/
private theorem fits_iff {envelope : FaultStateEnvelope} (valid : envelope.Valid) :
    envelope.toJson.toBytes.length ≤ maxBytes ↔ envelope.spelled ≤ 65443 := by
  have names : size (Json.quote "checkpoint") = 12 ∧ size (Json.quote "entries") = 9 := by
    decide
  have punctuation : (Char.ofNat 123).utf8Size = 1 ∧ (Char.ofNat 125).utf8Size = 1 ∧
      ':'.utf8Size = 1 ∧ ','.utf8Size = 1 ∧ '['.utf8Size = 1 ∧ ']'.utf8Size = 1 := by
    decide
  have whole : envelope.toJson.toBytes.length =
      93 + size (Json.renderValues (envelope.entries.entries.map FaultStateEntry.toJson)) + 1 := by
    change size envelope.toJson.render = _
    simp only [toJson, Json.render, Json.renderMembers, List.cons_append, size_append, size_cons,
      size_nil, size_hex valid.digest, names, punctuation]
    omega
  rw [whole, spelled, maxBytes]
  by_cases vacant : envelope.entries.entries = []
  · simp [vacant, Json.renderValues]
  · have entries := size_entries valid.entries vacant
    omega

end FaultStateEnvelope

section Built

open FaultStateEnvelope

/-- The envelopes reached from the empty one by reservations under a policy: every ordinal
within the retry limit, and every call under a state limit within the largest one. The
digest is that of the last call. -/
inductive Built (retryLimit stateLimit : Nat) : Digest → FaultStateEnvelope → Prop
  | empty (digest : Digest) : Built retryLimit stateLimit digest .empty
  | reserved {digest before : Digest} {envelope next : FaultStateEnvelope} {entry : FaultStateEntry}
      {limit : Nat} :
      Built retryLimit stateLimit before envelope → entry.Valid → entry.ordinal ≤ retryLimit →
      digest.length = 32 → limit ≤ stateLimit → envelope.reserved entry digest limit = .ok next →
      Built retryLimit stateLimit digest next

variable {retryLimit stateLimit : Nat} {digest : Digest} {envelope next : FaultStateEnvelope}

/-- What an accepted reservation leaves. -/
private theorem reserved_ok {entry : FaultStateEntry} {limit : Nat}
    (accepts : envelope.reserved entry digest limit = .ok next) :
    next = ⟨digest, envelope.entries.put entry⟩ ∧
      ((envelope.entries.lookup entry.key).isNone → envelope.entries.entries.length < limit) := by
  unfold FaultStateEnvelope.reserved at accepts
  split at accepts
  · cases accepts
  · split at accepts
    · cases accepts
    · split at accepts
      · cases accepts
      · split at accepts
        · cases accepts
        · rename_i room
          cases accepts
          refine ⟨rfl, fun new => ?_⟩
          by_contra full
          exact room ⟨new, Nat.le_of_not_lt full⟩

/-- The first reservation of a key that finds room is accepted. -/
private theorem reserved_new {entry : FaultStateEntry} {limit : Nat} (first : entry.ordinal = 1)
    (current : envelope.entries.entries ≠ [] → envelope.checkpointDigest = digest)
    (absent : envelope.entries.lookup entry.key = none)
    (room : envelope.entries.entries.length < limit) :
    envelope.reserved entry digest limit = .ok ⟨digest, envelope.entries.put entry⟩ := by
  have same : ¬ (envelope.entries.entries ≠ [] ∧ envelope.checkpointDigest ≠ digest) :=
    fun other => other.2 (current other.1)
  rw [FaultStateEnvelope.reserved, if_neg same, FaultStateEnvelope.reservedOrdinal, absent]
  simp [checkedNext, maxRetry, first, room]

/-- What holds of every envelope a policy builds. -/
structure WithinPolicy (retryLimit stateLimit : Nat) (digest : Digest) (envelope : FaultStateEnvelope) :
    Prop where
  valid : envelope.Valid
  few : envelope.entries.entries.length ≤ stateLimit
  ordinals : ∀ entry ∈ envelope.entries.entries, entry.ordinal ≤ retryLimit
  initial : envelope.entries.entries = [] → envelope.checkpointDigest = zeroDigest
  generation : envelope.entries.entries ≠ [] → envelope.checkpointDigest = digest

theorem WithinPolicy.reserved {entry : FaultStateEntry} {before : Digest} {limit : Nat}
    (within : WithinPolicy retryLimit stateLimit before envelope) (valid : entry.Valid)
    (permitted : entry.ordinal ≤ retryLimit) (whole : digest.length = 32) (admitted : limit ≤ stateLimit)
    (accepts : envelope.reserved entry digest limit = .ok next) :
    WithinPolicy retryLimit stateLimit digest next := by
  obtain ⟨rfl, room⟩ := reserved_ok accepts
  refine ⟨⟨whole, ?_⟩, ?_, ?_, ?_, fun _ => rfl⟩
  · intro other member
    rcases SortedTable.mem_placed member with same | earlier
    · exact same ▸ valid
    · exact within.valid.entries other earlier
  · rw [SortedTable.length_put]
    by_cases new : (envelope.entries.lookup entry.key).isNone = true
    · rw [if_pos new]
      exact Nat.le_trans (room new) admitted
    · rw [if_neg new]
      exact within.few
  · intro other member
    rcases SortedTable.mem_placed member with same | earlier
    · exact same ▸ permitted
    · exact within.ordinals other earlier
  · intro vacant
    have grown := congrArg List.length vacant
    rw [SortedTable.length_put] at grown
    split at grown
    · cases grown
    · rename_i found
      have empty : envelope.entries.entries = [] := List.eq_nil_of_length_eq_zero grown
      simp [SortedTable.lookup, empty] at found

theorem Built.within (built : Built retryLimit stateLimit digest envelope) :
    WithinPolicy retryLimit stateLimit digest envelope := by
  induction built with
  | empty =>
    exact ⟨⟨List.length_replicate, fun _ member => (List.not_mem_nil member).elim⟩, Nat.zero_le _,
      fun _ member => (List.not_mem_nil member).elim, fun _ => rfl, fun some => absurd rfl some⟩
  | reserved _ valid permitted whole admitted accepts within =>
    exact within.reserved valid permitted whole admitted accepts

theorem WithinPolicy.validateFor (within : WithinPolicy retryLimit stateLimit digest envelope) :
    envelope.validateFor retryLimit stateLimit digest = .ok () := by
  have ordinals : ¬ envelope.entries.entries.any fun entry => retryLimit < entry.ordinal := by
    simpa using within.ordinals
  have generation : ¬ (envelope.entries.entries ≠ [] ∧ envelope.checkpointDigest ≠ digest) :=
    fun other => other.2 (within.generation other.1)
  rw [FaultStateEnvelope.validateFor, if_neg (Nat.not_lt.mpr within.few), if_neg ordinals,
    if_neg generation]

/-- The digest of an envelope is zero exactly where it is empty, unless its reservations
carry the zero digest. -/
theorem WithinPolicy.digest_iff (within : WithinPolicy retryLimit stateLimit digest envelope) :
    (envelope.checkpointDigest = zeroDigest ↔ envelope.entries.entries = []) ↔
      (envelope.entries.entries = [] ∨ digest ≠ zeroDigest) := by
  by_cases vacant : envelope.entries.entries = []
  · simp [vacant, within.initial vacant]
  · simp [vacant, within.generation vacant]

variable {Checksum : Type} [DecidableEq Checksum]

/-- The envelope is written, read back as it is under its checksum, well formed, and
accepted by the policy that built it. -/
def RoundTrips (serde : StateFormat Checksum) (retryLimit stateLimit : Nat) (digest : Digest)
    (envelope : FaultStateEnvelope) : Prop :=
  (∃ bytes sum, envelope.toCanonicalJson = .ok bytes ∧ envelope.checksum serde = .ok sum ∧
    fromCanonicalJson serde formatVersion format schemaVersion bytes sum = .ok envelope) ∧
  envelope.Formed ∧ envelope.validateFor retryLimit stateLimit digest = .ok ()

variable {serde : StateFormat Checksum}

theorem WithinPolicy.roundTrips_iff (within : WithinPolicy retryLimit stateLimit digest envelope)
    (admissible : stateLimit ≤ maxEntries) (reads : ReadBack serde envelope) :
    RoundTrips serde retryLimit stateLimit digest envelope ↔
      (envelope.entries.entries = [] ∨ digest ≠ zeroDigest) ∧ envelope.spelled ≤ 65443 := by
  have few := Nat.le_trans within.few admissible
  constructor
  · rintro ⟨⟨bytes, sum, written, -, -⟩, formed, -⟩
    refine ⟨within.digest_iff.mp formed.digest, ?_⟩
    apply (fits_iff within.valid).mp
    by_contra large
    rw [toCanonicalJson, if_pos (Nat.lt_of_not_le large)] at written
    cases written
  · rintro ⟨dated, small⟩
    have digests := within.digest_iff.mpr dated
    have fits := (fits_iff within.valid).mpr small
    have own := fromCanonicalJson_own reads within.valid few fits
    rw [if_pos digests] at own
    refine ⟨⟨_, _, toCanonicalJson_fits fits, ?_, own⟩, ⟨envelope.entries.ascending, few, digests⟩,
      within.validateFor⟩
    rw [checksum, toCanonicalJson_fits fits]
    rfl

/-- An envelope built by reservations round-trips exactly when it is empty or of a real
checkpoint, and its entries stay below the ceiling; what the decoder accepts is written
again and read as the same envelope. -/
theorem fault_state_round_trip (serde : StateFormat Checksum) :
    (∀ retryLimit stateLimit digest envelope, stateLimit ≤ maxEntries →
      Built retryLimit stateLimit digest envelope → ReadBack serde envelope →
      (RoundTrips serde retryLimit stateLimit digest envelope ↔
        (envelope.entries.entries = [] ∨ digest ≠ zeroDigest) ∧ envelope.spelled ≤ 65443)) ∧
    ∀ storedVersion schema storedSchema bytes stored envelope,
      fromCanonicalJson serde storedVersion schema storedSchema bytes stored = .ok envelope →
      ReadBack serde envelope →
      ∃ canonical, envelope.toCanonicalJson = .ok canonical ∧
        fromCanonicalJson serde formatVersion format schemaVersion canonical stored =
          .ok envelope := by
  constructor
  · intro retryLimit stateLimit digest envelope admissible built reads
    exact built.within.roundTrips_iff admissible reads
  · intro storedVersion schema storedSchema bytes stored envelope accepts reads
    obtain ⟨valid, formed, fits, same⟩ := fromCanonicalJson_ok accepts
    have own := fromCanonicalJson_own reads valid formed.few fits
    rw [if_pos formed.digest, ← same] at own
    exact ⟨_, toCanonicalJson_fits fits, own⟩

end Built

section Vectors

/-- The entry of a first write retry. -/
def writeEntry (key : Digest) (revision : ClassifierRevision) : FaultStateEntry :=
  ⟨key, .write, .transientInfrastructure, 1, revision⟩

/-- The entry of a write that was retried twice. -/
def retriedEntry : FaultStateEntry :=
  { writeEntry (List.replicate 32 2) ⟨"v1", Eq.refl true⟩ with ordinal := 2 }

/-- The entry of a first read retry. -/
def readEntry : FaultStateEntry :=
  ⟨List.replicate 32 1, .read, .timeout, 1, ⟨"v2", Eq.refl true⟩⟩

def writtenOnly : FaultStateEnvelope :=
  ⟨List.replicate 32 7, .put .empty (writeEntry (List.replicate 32 2) ⟨"v1", Eq.refl true⟩)⟩

/-- The write is reserved before the read, whose key sorts before its own. -/
def twoEntries : FaultStateEnvelope :=
  ⟨List.replicate 32 7, (writtenOnly.entries.put readEntry).put retriedEntry⟩

/-- The serializer and the digest on the document of one envelope. -/
def ownFormat (envelope : FaultStateEnvelope) (sum : Digest) : StateFormat Digest where
  fromSlice bytes := if bytes = envelope.toJson.toBytes then some envelope.toJson else none
  sha256 bytes := if bytes = envelope.toJson.toBytes then sum else []

private theorem ownFormat_reads (envelope : FaultStateEnvelope) (sum : Digest) :
    FaultStateEnvelope.ReadBack (ownFormat envelope sum) envelope := by
  simp only [FaultStateEnvelope.ReadBack, ownFormat, if_true]

def twoFormat : StateFormat Digest :=
  ownFormat twoEntries
    (beBytes 32 0x71725cfec08f01383e4faf534ab6dd745b12280c4ece6f55e7bc3a83e69a7249)

private theorem twoEntries_built : Built 3 256 (List.replicate 32 7) twoEntries := by
  have written : FaultStateEnvelope.empty.reserved
      (writeEntry (List.replicate 32 2) ⟨"v1", by decide⟩) (List.replicate 32 7) 256 =
        .ok writtenOnly :=
    reserved_new rfl (fun some => absurd rfl some) rfl (Nat.zero_lt_succ 255)
  have first : Built 3 256 (List.replicate 32 7) writtenOnly :=
    .reserved (.empty zeroDigest) ⟨rfl, by decide⟩ (by decide) rfl (Nat.le_refl 256) written
  have read := @reserved_new (List.replicate 32 7) writtenOnly readEntry 256 rfl (fun _ => rfl) rfl
    (by decide)
  have second : Built 3 256 (List.replicate 32 7) _ :=
    .reserved first ⟨rfl, by decide⟩ (by decide) rfl (Nat.le_refl 256) read
  have again : FaultStateEnvelope.reserved
      ⟨List.replicate 32 7, writtenOnly.entries.put readEntry⟩ retriedEntry
      (List.replicate 32 7) 256 = .ok twoEntries := rfl
  exact .reserved second ⟨rfl, by decide⟩ (by decide) rfl (Nat.le_refl 256) again

theorem twoEntries_round_trips :
    RoundTrips twoFormat 3 256 (List.replicate 32 7) twoEntries := by
  refine ((fault_state_round_trip twoFormat).1 3 256 _ twoEntries (Nat.le_refl 256)
    twoEntries_built (ownFormat_reads twoEntries _)).mpr ⟨.inr ?_, ?_⟩
  · decide
  · decide

/-- A revision as long as they get. -/
def longRevision : ClassifierRevision := ⟨String.ofList (List.replicate 128 'x'), by decide +kernel⟩

def crowdEntry (index : Nat) : FaultStateEntry :=
  writeEntry (List.replicate 31 0 ++ [UInt8.ofNat index]) longRevision

private theorem crowdEntry_key {left right : Nat} (small : left < 256) (small' : right < 256)
    (same : (crowdEntry left).key = (crowdEntry right).key) : left = right := by
  have bytes := (List.cons.inj (List.append_cancel_left same)).1
  have values := congrArg UInt8.toNat bytes
  simpa [Nat.mod_eq_of_lt small, Nat.mod_eq_of_lt small'] using values

private theorem crowdEntry_valid (index : Nat) : (crowdEntry index).Valid := by
  refine ⟨?_, ?_⟩
  · simp [crowdEntry, writeEntry]
  · change 1 ≤ 65535
    omega

private theorem crowdEntry_spelled (index : Nat) : (crowdEntry index).spelled = 282 := by
  have first : (crowdEntry 0).spelled = 282 := by decide +kernel
  exact first

/-- Reservations fill an envelope up to its capacity, whatever their revisions weigh. -/
private theorem crowd_built (count : Nat) (within : count ≤ 256) :
    ∃ envelope, Built 1 256 (List.replicate 32 7) envelope ∧
      envelope.entries.entries.length = count ∧
      ∀ entry ∈ envelope.entries.entries, ∃ index < count, entry = crowdEntry index := by
  induction count with
  | zero => exact ⟨.empty, .empty _, rfl, fun _ member => (List.not_mem_nil member).elim⟩
  | succ count ih =>
    obtain ⟨envelope, built, length, crowd⟩ := ih (by omega)
    have absent : envelope.entries.lookup (crowdEntry count).key = none := by
      rw [SortedTable.lookup_none]
      intro entry member same
      obtain ⟨index, below, rfl⟩ := crowd entry member
      have indices := crowdEntry_key (by omega) (by omega) same
      omega
    have accepts := @reserved_new (List.replicate 32 7) envelope (crowdEntry count) 256 rfl
      built.within.generation absent (by omega)
    refine ⟨_, .reserved built (crowdEntry_valid count) (Nat.le_refl 1) rfl (Nat.le_refl 256) accepts, ?_, ?_⟩
    · rw [SortedTable.length_put, absent, length]
      rfl
    · intro entry member
      rcases SortedTable.mem_placed member with same | earlier
      · exact ⟨count, by omega, same⟩
      · obtain ⟨index, below, same⟩ := crowd entry earlier
        exact ⟨index, by omega, same⟩

/-- A full envelope of long revisions passes every reservation and is too large to write;
a reservation under the zero digest leaves an envelope its constructor rejects. -/
theorem round_trip_fails :
    (∃ envelope, Built 1 256 (List.replicate 32 7) envelope ∧
      envelope.toCanonicalJson = .error (.tooLarge 65536)) ∧
    (∃ envelope, Built 1 256 zeroDigest envelope ∧ ¬ envelope.Formed) ∧
    ¬ ∀ (serde : StateFormat Digest) retryLimit stateLimit digest envelope,
      stateLimit ≤ FaultStateEnvelope.maxEntries → Built retryLimit stateLimit digest envelope →
      FaultStateEnvelope.ReadBack serde envelope →
      RoundTrips serde retryLimit stateLimit digest envelope := by
  obtain ⟨envelope, built, length, crowd⟩ := crowd_built 256 (Nat.le_refl 256)
  have weights : envelope.spelled = 72448 := by
    have each : envelope.entries.entries.map (fun entry => entry.spelled + 1) =
        List.replicate envelope.entries.entries.length 283 := by
      refine List.eq_replicate_iff.mpr ⟨List.length_map _, fun weight member => ?_⟩
      obtain ⟨entry, present, rfl⟩ := List.mem_map.mp member
      obtain ⟨index, _, rfl⟩ := crowd entry present
      rw [crowdEntry_spelled]
    rw [FaultStateEnvelope.spelled, each, length, List.sum_replicate_nat]
  have large : FaultStateEnvelope.maxBytes < envelope.toJson.toBytes.length := by
    apply Nat.lt_of_not_le
    rw [FaultStateEnvelope.fits_iff built.within.valid, weights]
    decide
  have refused : envelope.toCanonicalJson = .error (.tooLarge 65536) := if_pos large
  refine ⟨⟨envelope, built, refused⟩, ?_, ?_⟩
  · refine ⟨_, .reserved (.empty zeroDigest) (crowdEntry_valid 0) (Nat.le_refl 1) rfl (Nat.le_refl 256)
      (@reserved_new zeroDigest .empty (crowdEntry 0) 256 rfl (fun some => absurd rfl some) rfl
        (Nat.zero_lt_succ 255)), ?_⟩
    intro formed
    exact absurd (formed.digest.mp rfl) (List.cons_ne_nil _ _)
  · intro always
    obtain ⟨⟨_, _, written, _⟩, _⟩ := always ⟨fun _ => some envelope.toJson, fun _ => []⟩ 1 256 _
      envelope (Nat.le_refl 256) built rfl
    rw [refused] at written
    cases written

end Vectors

end OxideBatch.Chunk
